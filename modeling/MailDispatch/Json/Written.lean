import MailDispatch.Json.Record

/-! # The written form of values

Objects without blanks. In texts the quote, the backslash and the controls are
escaped; all other characters stand for themselves.
-/
namespace MailDispatch.Json
open Text Time

def hexDigit (n : Nat) : Char := Nat.digitChar n

def writtenChar (c : Char) : List Char :=
  match c with
  | '"' => ['\\', '"']
  | '\\' => ['\\', '\\']
  | '\x08' => ['\\', 'b']
  | '\x0c' => ['\\', 'f']
  | '\n' => ['\\', 'n']
  | '\r' => ['\\', 'r']
  | '\t' => ['\\', 't']
  | c =>
    if c.toNat < 32 then ['\\', 'u', '0', '0', hexDigit (c.toNat / 16), hexDigit (c.toNat % 16)]
    else [c]

def writtenText (s : List Char) : List Char := '"' :: s.flatMap writtenChar ++ ['"']

def Scalar.written : Scalar → List Char
  | .whole n => Numeral.ofInt n
  | .text s => writtenText s.toList
  | .time t => '"' :: t.written ++ ['"']

def writtenMember (key : String) (value : List Char) : List Char :=
  writtenText key.toList ++ ':' :: value

def writtenMembers : List (List Char) → List Char
  | [] => []
  | [m] => m
  | m :: ms => m ++ ',' :: writtenMembers ms

def writtenObject (members : List (List Char)) : List Char :=
  '\x7b' :: writtenMembers members ++ ['\x7d']

def Shape.written (sh : Shape) (vs : List Scalar) : List Char :=
  writtenObject (List.zipWith (fun f v => writtenMember f.key v.written) sh.fields vs)

end MailDispatch.Json
