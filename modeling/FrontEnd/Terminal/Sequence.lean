/-! # Escape sequences

The grammar of the sequences that steer a terminal. A sequence begins with the escape character,
and the characters behind it say of what kind it is and where it ends. Controls have no part in
the grammar: they are neither the end of a sequence nor one of its parameters, apart from the bell
behind a command.
-/

namespace FrontEnd.Terminal

/-- Where in a text or an escape sequence a character stands. -/
inductive Region where
  | text
  | escape
  /-- In a short sequence, which a digit or letter ends. -/
  | intermediate
  /-- In a sequence of parameters, which a letter ends. -/
  | parameters
  | deviceStart
  | deviceParameters
  | deviceIntermediate
  /-- In a string, which the string terminator ends. -/
  | string
  /-- In a command, which a bell ends. -/
  | command
deriving DecidableEq, Repr

def isBetween (low high char : Char) : Bool :=
  low ≤ char && char ≤ high

/-- Whether the string terminator, a single byte, is one of those that encode a character. -/
def holdsTerminator (char : Char) : Bool :=
  (String.utf8EncodeChar char).contains 0x9c

namespace Region

/-- Where the character behind the escape character leads. -/
def ofIntroducer (char : Char) : Region :=
  if char = '[' then parameters
  else if char = ']' then command
  else if char = 'P' then deviceStart
  else if char = 'X' || char = '^' || char = '_' then string
  else if isBetween ' ' '/' char then intermediate
  else if isBetween '0' '~' char then text
  else escape

/-- Where a character at the head of a string for the device leads. The parameters are numbers
with semicolons between them, a private mark may stand before them, and anything else that is out
of place makes the rest a string, as its final letter does. -/
def ofDeviceChar (region : Region) (char : Char) : Region :=
  let takesParameters := region ≠ deviceIntermediate
  let takesMark := region = deviceStart
  if isBetween ' ' '/' char then deviceIntermediate
  else if takesParameters && (isBetween '0' '9' char || char = ';') then deviceParameters
  else if takesMark && isBetween '<' '?' char then deviceParameters
  else if isBetween '0' '~' char then string
  else region

/-- Where a character leads that neither begins nor cancels a sequence. -/
def next (region : Region) (char : Char) : Region :=
  match region with
  | text => text
  | escape => ofIntroducer char
  | intermediate => if isBetween '0' '~' char then text else intermediate
  | parameters => if isBetween '@' '~' char then text else parameters
  | deviceStart | deviceParameters | deviceIntermediate => region.ofDeviceChar char
  | string => if holdsTerminator char then text else string
  | command => if char = '\x07' then text else command

end FrontEnd.Terminal.Region
