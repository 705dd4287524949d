import MailDispatch.Json.Skip
import MailDispatch.Settings.Tree

/-! # Documents of settings

A document is read as a whole into a tree. Of members with one key the last one
counts. The depth of its brackets is limited.
-/
namespace MailDispatch.Settings
open Text Json Number

def depthLimit : Nat := 128

/-- A whole number beyond the signed words of 64 bits is taken as a fraction. -/
def numberTree : Numeric → Tree
  | .whole n =>
    if Numeral.Bounds.int64.Contains n then .whole n
    else
      match Binary64.ofNat false n.toNat with
      | some x => .fraction x
      | none => .absent
  | .fraction x => .fraction x

def scalarTree (b : UInt8) (rest : Octets) : Except Problem (Tree × Octets) :=
  match number? (b :: rest) with
  | some r => r.map fun (n, rest) => (numberTree n, rest)
  | none =>
    if b = 110 then (null rest).map fun rest => (.absent, rest)
    else if b = 116 then (yes rest).map fun rest => (.truth true, rest)
    else if b = 102 then (no rest).map fun rest => (.truth false, rest)
    else if b = 34 then (text rest).map fun (t, rest) => (.text t, rest)
    else .error (.ahead .expectedValue (b :: rest))

mutual

/-- A value. Each step takes at least one octet, and `depth` brackets may still be opened. -/
def value : Nat → Nat → Octets → Except Problem (Tree × Octets)
  | 0, _, s => .error (.here .endInValue s)
  | fuel + 1, depth, s =>
    match skipBlanks s with
    | [] => .error (.here .endInValue [])
    | b :: rest =>
      if b = 91 ∨ b = 123 then
        match depth with
        | 0 => .error (.ahead .tooDeep (b :: rest))
        | depth + 1 =>
          if b = 91 then
            (listItems fuel depth true rest).map fun (ts, rest) => (.list ts, rest)
          else
            (tableMembers fuel depth true [] rest).map fun (ms, rest) => (.table ms, rest)
      else scalarTree b rest

def listItems : Nat → Nat → Bool → Octets → Except Problem (List Tree × Octets)
  | 0, _, _, s => .error (.here .endInList s)
  | fuel + 1, depth, first, s =>
    match skipBlanks s with
    | [] => .error (.here .endInList [])
    | b :: rest =>
      if b = 93 ∧ first then .ok ([], rest)
      else if first then do
        let (t, rest) ← value fuel depth (b :: rest)
        let (ts, rest) ← listItems fuel depth false rest
        return (t :: ts, rest)
      else if b = 93 then .ok ([], rest)
      else if b = 44 then do
        let (t, rest) ← value fuel depth rest
        let (ts, rest) ← listItems fuel depth false rest
        return (t :: ts, rest)
      else .error (.ahead .expectedListEnd (b :: rest))

def tableMembers : Nat → Nat → Bool → List (String × Tree) → Octets →
    Except Problem (List (String × Tree) × Octets)
  | 0, _, _, _, s => .error (.here .endInObject s)
  | fuel + 1, depth, first, ms, s =>
    match skipBlanks s with
    | [] => .error (.here .endInObject [])
    | b :: rest =>
      if b = 125 then .ok (ms, rest)
      else do
        let s ← if first then pure (b :: rest)
          else if b = 44 then pure (skipBlanks rest)
          else throw (.ahead .expectedObjectEnd (b :: rest))
        match s with
        | [] => throw (.here .endInValue [])
        | c :: rest =>
          if c ≠ 34 then throw (.ahead .keyMustBeText (c :: rest))
          let (key, rest) ← text rest
          let rest ← colon rest
          let (v, rest) ← value fuel depth rest
          tableMembers fuel depth false (Tree.setMember key v ms) rest

end

def readDocument (s : Octets) : Except Problem Tree := do
  let (t, rest) ← value (2 * s.length + 2) (depthLimit - 1) s
  match skipBlanks rest with
  | [] => return t
  | after => throw (.ahead .trailingCharacters after)

end MailDispatch.Settings
