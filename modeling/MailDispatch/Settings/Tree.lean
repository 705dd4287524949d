import MailDispatch.Number.Binary64
import MailDispatch.Text.Numeral

/-! # Trees of settings

A configuration is a tree: tables and lists with scalars at their leaves. A value
is put into a table under a key; tables are merged key by key, and everything else
takes the place of what was there.
-/
namespace MailDispatch.Settings
open Number Text

inductive Tree where
  | absent
  | truth (b : Bool)
  | whole (n : Int)
  | fraction (x : Binary64)
  | text (s : String)
  | list (items : List Tree)
  | table (members : List (String × Tree))

namespace Tree

/-- The members of a table; everything else has none. -/
def members : Tree → List (String × Tree)
  | table ms => ms
  | _ => []

def items : Tree → List Tree
  | list ts => ts
  | _ => []

/-- Sets the member of a key, in its place if it is there and at the end otherwise. -/
def setMember (key : String) (value : Tree) : List (String × Tree) → List (String × Tree)
  | [] => [(key, value)]
  | (k, v) :: rest => if k = key then (k, value) :: rest else (k, v) :: setMember key value rest

mutual

/-- Puts a value into a table under a key. What is no table becomes an empty one first. -/
def put (root : Tree) (key : String) (value : Tree) : Tree :=
  let ms := root.members
  match value with
  | table incoming =>
    table (setMember key (putAll ((ms.lookup key).getD (table [])) incoming) ms)
  | value => table (setMember key value ms)

def putAll (root : Tree) : List (String × Tree) → Tree
  | [] => root
  | (k, v) :: rest => putAll (put root k v) rest

end

/-- Changes the member of a key, which is absent before it is there. -/
def changeMember (key : String) (f : Tree → Tree) (root : Tree) : Tree :=
  let ms := root.members
  table (setMember key (f ((ms.lookup key).getD absent)) ms)

/-- The position that an index stands for; a negative one counts from the end. -/
def position (index : Int) (length : Nat) : Nat :=
  if 0 ≤ index then index.toNat else length - index.natAbs

/-- Changes the item at an index of a list, which grows as far as it has to. -/
def changeItem (index : Int) (f : Tree → Tree) (root : Tree) : Tree :=
  let ts := root.items
  let i := position index ts.length
  let ts := ts ++ List.replicate (i + 1 - ts.length) absent
  list (ts.set i (f (ts[i]?.getD absent)))

end Tree
end MailDispatch.Settings
