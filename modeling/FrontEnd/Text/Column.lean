/-! # Columns of text

Listings are laid out in columns. A column pads its text with spaces to a width counted in
characters, and text that is wider than its column is kept whole.
-/

namespace FrontEnd.Text

def blanks (width : Nat) : String :=
  String.ofList (List.replicate width ' ')

/-- Text at the left of a column. -/
def alignLeft (width : Nat) (text : String) : String :=
  text ++ blanks (width - text.length)

/-- Text at the right of a column. -/
def alignRight (width : Nat) (text : String) : String :=
  blanks (width - text.length) ++ text

@[simp] theorem toList_blanks (width : Nat) : (blanks width).toList = List.replicate width ' ' :=
  String.toList_ofList

@[simp] theorem toList_alignLeft (width : Nat) (text : String) :
    (alignLeft width text).toList =
      text.toList ++ List.replicate (width - text.length) ' ' := by
  simp [alignLeft]

@[simp] theorem toList_alignRight (width : Nat) (text : String) :
    (alignRight width text).toList =
      List.replicate (width - text.length) ' ' ++ text.toList := by
  simp [alignRight]

end FrontEnd.Text
