import FrontEnd.Text.Unseen

/-! # Quoted text

Text between quotes. A quote, a backslash and the common control characters have short escapes.
Characters that cannot be seen as themselves are given by their code.
-/

namespace FrontEnd.Text

def hexDigits (code : Nat) : String :=
  String.ofList (Nat.toDigits 16 code)

/-- A character as it stands between quotes. -/
def quotedChar (char : Char) : String :=
  match char with
  | '"' => "\\\""
  | '\\' => "\\\\"
  | '\n' => "\\n"
  | '\r' => "\\r"
  | '\t' => "\\t"
  | '\x00' => "\\0"
  | _ =>
    if isUnseen char then "\\u\x7b" ++ hexDigits char.toNat ++ "\x7d"
    else String.singleton char

def quoted (text : String) : String :=
  "\"" ++ String.join (text.toList.map quotedChar) ++ "\""

end FrontEnd.Text
