import MailDispatch.Proofs.Settings.Merging

/-! # What is said last

Documents of any form are laid over each other member by member. A setting can be given in a
part by name or in a part by place, as a value of the part or through a path. What gives it a
value decides, as long as nothing later touches that setting or the form of its part.
-/
namespace MailDispatch.Settings
open Text

/-! ## Members one by one -/

/-- Lays one member of a document over a tree. -/
def lay (root : Tree) (m : String × Tree) : Tree := (Path.ofKey m.1).put m.2 root

/-- The members of all documents, in the order in which they are laid over the defaults. -/
def sayings (files : String → Option Octets) : List String → Except Problem (List (String × Tree))
  | [] => .ok []
  | path :: paths => do
    let d ← readFile files path
    return d.members ++ (← sayings files paths)

theorem layered_eq_map (files : String → Option Octets) (t : Tree) (paths : List String) :
    layered files t paths = (sayings files paths).map fun ms => ms.foldl lay t := by
  induction paths generalizing t with
  | nil => rfl
  | cons path paths ih =>
    unfold layered sayings
    cases readFile files path with
    | error e => rfl
    | ok d =>
      change layered files (overlay t d) paths = Except.map _ (do
        return d.members ++ (← sayings files paths))
      rw [ih]
      cases sayings files paths with
      | error e => rfl
      | ok ms =>
        change Except.ok (ms.foldl lay (d.members.foldl lay t)) =
          Except.ok ((d.members ++ ms).foldl lay t)
        rw [List.foldl_append]

theorem exists_lay_eq (root : Tree) (m : String × Tree) :
    ∃ w, lay root m = .table (Tree.setMember (Path.ofKey m.1).key w root.members) := by
  unfold lay Path.put
  split
  · exact Tree.exists_put_eq _ _ _
  · exact ⟨_, rfl⟩

/-! ## What holds of a tree -/

/-- How the values of a part are given, by names or by places. -/
inductive Shape where
  | named
  | placed
  deriving DecidableEq, Repr

/-- A tree has a value for a setting. -/
inductive Holds (a : Item) (t : Tree) : Shape → Tree → Prop
  | named {ms fs : List (String × Tree)} (hpart : ms.lookup a.part.name = some (.table fs))
      (hfield : fs.lookup a.name = some t) : Holds a t .named (.table ms)
  | placed {ms : List (String × Tree)} {ts : List Tree}
      (hpart : ms.lookup a.part.name = some (.list ts))
      (hitem : ts[a.place]? = some t) : Holds a t .placed (.table ms)

variable {a : Item} {t root : Tree} {shape : Shape} {m : String × Tree}

theorem Holds.readFrom (h : Holds a t shape root) :
    ∃ top, Section.of root = .ok top ∧ a.readFrom top = a.form.read t := by
  cases h with
  | @named ms fs hpart hfield =>
    refine ⟨.named ms, rfl, ?_⟩
    simp only [Item.readFrom, Section.field, Section.get?, hpart]
    change a.readIn (.named fs) = _
    simp only [Item.readIn, Section.field, Section.get?, hfield]
  | @placed ms ts hpart hitem =>
    refine ⟨.named ms, rfl, ?_⟩
    simp only [Item.readFrom, Section.field, Section.get?, hpart]
    change a.readIn (.placed ts) = _
    simp only [Item.readIn, Section.field, Section.get?, hitem]

/-! ## What gives a value -/

/-- A member gives a setting a value: in its part by name, where the last field of that name
counts, or by place, or by the path to it. -/
inductive Gives (a : Item) (t : Tree) : Shape → String × Tree → Prop
  | field {key : String} {before after : List (String × Tree)}
      (hkey : Path.ofKey key = ⟨a.part.name, []⟩) (hscalar : t.isScalar = true)
      (hafter : a.name ∉ after.map Prod.fst) :
      Gives a t .named (key, .table (before ++ (a.name, t) :: after))
  | child {key : String} (hkey : Path.ofKey key = ⟨a.part.name, [.child a.name]⟩)
      (hscalar : t.isScalar = true) : Gives a t .named (key, t)
  | item {key : String} {ts : List Tree} (hkey : Path.ofKey key = ⟨a.part.name, []⟩)
      (hitem : ts[a.place]? = some t) : Gives a t .placed (key, .list ts)
  | index {key : String} (hkey : Path.ofKey key = ⟨a.part.name, [.index a.place]⟩) :
      Gives a t .placed (key, t)

/-- A member leaves a setting as it is: it belongs to another part, or it says something about
other fields of the part in the form that the part has. -/
inductive Spares (a : Item) : Shape → String × Tree → Prop
  | elsewhere {shape : Shape} {m : String × Tree} (hkey : (Path.ofKey m.1).key ≠ a.part.name) :
      Spares a shape m
  | fields {key : String} {fs : List (String × Tree)} (hkey : Path.ofKey key = ⟨a.part.name, []⟩)
      (hfields : a.name ∉ fs.map Prod.fst) : Spares a .named (key, .table fs)
  | child {key k : String} {v : Tree} {steps : List Step}
      (hkey : Path.ofKey key = ⟨a.part.name, .child k :: steps⟩) (hne : k ≠ a.name) :
      Spares a .named (key, v)
  | index {key : String} {i : Nat} {v : Tree} {steps : List Step}
      (hkey : Path.ofKey key = ⟨a.part.name, .index i :: steps⟩) (hne : i ≠ a.place) :
      Spares a .placed (key, v)

/-! ## One member -/

namespace Tree

theorem putAll_append (root : Tree) (before after : List (String × Tree)) :
    putAll root (before ++ after) = putAll (putAll root before) after := by
  induction before generalizing root with
  | nil => simp only [putAll, List.nil_append]
  | cons f before ih => simp only [putAll, List.cons_append, ih]

theorem lookup_putAll_of_not_mem {fs : List (String × Tree)} {key : String}
    (h : key ∉ fs.map Prod.fst) (root : Tree) :
    (putAll root fs).members.lookup key = root.members.lookup key := by
  induction fs generalizing root with
  | nil => simp only [putAll]
  | cons f fs ih =>
    rw [List.map_cons, List.mem_cons, not_or] at h
    obtain ⟨w, hw⟩ := exists_put_eq root f.2 f.1
    simp only [putAll]
    rw [ih h.2, hw, members, lookup_setMember, if_neg h.1]

/-- The last field of a name decides. -/
theorem exists_putAll_last {before after : List (String × Tree)} {key : String} {t : Tree}
    (hscalar : t.isScalar = true) (hafter : key ∉ after.map Prod.fst) (root : Tree) :
    ∃ gs, putAll root (before ++ (key, t) :: after) = table gs ∧ gs.lookup key = some t := by
  rw [putAll_append, putAll, put_of_isScalar hscalar]
  obtain ⟨gs, hgs⟩ := putAll_of_table after (setMember key t (putAll root before).members)
  refine ⟨gs, hgs, ?_⟩
  have hlookup := lookup_putAll_of_not_mem hafter
    (table (setMember key t (putAll root before).members))
  rw [hgs] at hlookup
  simpa only [members, lookup_setMember, if_true] using hlookup

theorem position_natCast (i n : Nat) : position i n = i := by
  rw [position, if_pos (Int.natCast_nonneg i), Int.toNat_natCast]

theorem exists_changeItem_self (node : Tree) (i : Nat) (t : Tree) :
    ∃ ts, (node.changeItem i fun _ => t) = list ts ∧ ts[i]? = some t := by
  refine ⟨_, rfl, ?_⟩
  simp only [position_natCast]
  rw [List.getElem?_set_self]
  rw [List.length_append, List.length_replicate]
  omega

theorem exists_changeItem_of_ne {ts : List Tree} {i j : Nat} {t : Tree} (h : ts[j]? = some t)
    (hne : i ≠ j) (f : Tree → Tree) :
    ∃ ts', (list ts).changeItem i f = list ts' ∧ ts'[j]? = some t := by
  refine ⟨_, rfl, ?_⟩
  obtain ⟨hlt, -⟩ := List.getElem?_eq_some_iff.mp h
  simp only [position_natCast, items]
  rw [List.getElem?_set_ne hne, List.getElem?_append_left hlt]
  exact h

end Tree

theorem lay_of_key {key : String} {v : Tree} (hkey : Path.ofKey key = ⟨a.part.name, []⟩) :
    lay root (key, v) = root.put a.part.name v := by
  rw [lay, hkey]
  rfl

theorem lay_of_steps {key : String} {v : Tree} {step : Step} {steps : List Step}
    (hkey : Path.ofKey key = ⟨a.part.name, step :: steps⟩) :
    lay root (key, v) = root.changeMember a.part.name (Path.putSteps v (step :: steps)) := by
  rw [lay, hkey]
  rfl

theorem Gives.holds (h : Gives a t shape m) (root : Tree) : Holds a t shape (lay root m) := by
  cases h with
  | field hkey hscalar hafter =>
    rw [lay_of_key hkey, Tree.put_table]
    obtain ⟨gs, hgs, hlookup⟩ := Tree.exists_putAll_last hscalar hafter
      ((root.members.lookup a.part.name).getD (.table []))
    rw [hgs]
    apply Holds.named _ hlookup
    rw [Tree.lookup_setMember, if_pos rfl]
  | child hkey hscalar =>
    rw [lay_of_steps hkey, Tree.changeMember, Path.putSteps, Tree.put_of_isScalar hscalar]
    apply Holds.named
    · rw [Tree.lookup_setMember, if_pos rfl]
    · rw [Tree.lookup_setMember, if_pos rfl]
  | item hkey hitem =>
    rw [lay_of_key hkey, Tree.put]
    · apply Holds.placed _ hitem
      rw [Tree.lookup_setMember, if_pos rfl]
    · intro ms hms
      cases hms
  | index hkey =>
    rw [lay_of_steps hkey, Tree.changeMember, Path.putSteps]
    obtain ⟨ts, hts, hitem⟩ := Tree.exists_changeItem_self
      ((root.members.lookup a.part.name).getD .absent) a.place t
    rw [hts]
    apply Holds.placed _ hitem
    rw [Tree.lookup_setMember, if_pos rfl]

theorem exists_putSteps_child (v : Tree) (k : String) (steps : List Step)
    (gs : List (String × Tree)) :
    ∃ w, Path.putSteps v (.child k :: steps) (.table gs) = .table (Tree.setMember k w gs) := by
  cases steps with
  | nil => exact Tree.exists_put_eq (.table gs) v k
  | cons step steps => exact ⟨_, rfl⟩

theorem exists_putSteps_index (v : Tree) (i : Int) (steps : List Step) :
    ∃ f, Path.putSteps v (.index i :: steps) = Tree.changeItem i f := by
  cases steps with
  | nil =>
    refine ⟨fun _ => v, ?_⟩
    funext node
    rw [Path.putSteps]
  | cons step steps =>
    refine ⟨Path.putSteps v (step :: steps), ?_⟩
    funext node
    rw [Path.putSteps]
    exact List.cons_ne_nil _ _

theorem Holds.lay (h : Holds a t shape root) (hm : Spares a shape m) :
    Holds a t shape (lay root m) := by
  cases hm with
  | elsewhere hkey =>
    obtain ⟨w, hw⟩ := exists_lay_eq root m
    rw [hw]
    cases h with
    | named hpart hfield =>
      apply Holds.named _ hfield
      rw [Tree.members, Tree.lookup_setMember, if_neg (Ne.symm hkey)]
      exact hpart
    | placed hpart hitem =>
      apply Holds.placed _ hitem
      rw [Tree.members, Tree.lookup_setMember, if_neg (Ne.symm hkey)]
      exact hpart
  | @fields key fs hkey hfields =>
    obtain @⟨ms, gs, hpart, hfield⟩ := h
    rw [lay_of_key hkey, Tree.put_table, Tree.members, hpart, Option.getD_some]
    obtain ⟨gs', hgs'⟩ := Tree.putAll_of_table fs gs
    have hlookup := Tree.lookup_putAll_of_not_mem hfields (.table gs)
    rw [hgs', Tree.members, Tree.members, hfield] at hlookup
    rw [hgs']
    apply Holds.named _ hlookup
    rw [Tree.lookup_setMember, if_pos rfl]
  | @child key k v steps hkey hne =>
    obtain @⟨ms, gs, hpart, hfield⟩ := h
    obtain ⟨w, hw⟩ := exists_putSteps_child v k steps gs
    rw [lay_of_steps hkey, Tree.changeMember, Tree.members, hpart, Option.getD_some, hw]
    apply Holds.named
    · rw [Tree.lookup_setMember, if_pos rfl]
    · rw [Tree.lookup_setMember, if_neg (Ne.symm hne)]
      exact hfield
  | @index key i v steps hkey hne =>
    cases h with
    | @placed ms ts hpart hitem =>
      obtain ⟨f, hf⟩ := exists_putSteps_index v i steps
      obtain ⟨ts', hts', hitem'⟩ := Tree.exists_changeItem_of_ne hitem hne f
      rw [lay_of_steps hkey, Tree.changeMember, Tree.members, hpart, Option.getD_some, hf, hts']
      apply Holds.placed _ hitem'
      rw [Tree.lookup_setMember, if_pos rfl]

/-! ## All members -/

theorem Holds.foldl {ms : List (String × Tree)} (h : Holds a t shape root)
    (hms : ∀ m ∈ ms, Spares a shape m) : Holds a t shape (ms.foldl Settings.lay root) := by
  induction ms generalizing root with
  | nil => exact h
  | cons m ms ih =>
    apply ih
    · exact h.lay (hms m List.mem_cons_self)
    · exact fun m hm => hms m (List.mem_cons_of_mem _ hm)

/-- A value is the last thing that files say about a setting. -/
def GivenLast (files : String → Option Octets) (paths : List String) (a : Item) (t : Tree) : Prop :=
  ∃ before m after shape, sayings files paths = .ok (before ++ m :: after) ∧
    Gives a t shape m ∧ ∀ later ∈ after, Spares a shape later

theorem GivenLast.holds {files : String → Option Octets} {paths : List String}
    (h : GivenLast files paths a t) :
    ∃ root shape, layered files defaults paths = .ok root ∧ Holds a t shape root := by
  obtain ⟨before, m, after, shape, hsayings, hgives, hspares⟩ := h
  refine ⟨_, shape, ?_, (hgives.holds (before.foldl lay defaults)).foldl hspares⟩
  rw [layered_eq_map, hsayings]
  change Except.ok ((before ++ m :: after).foldl lay defaults) = _
  rw [List.foldl_append, List.foldl_cons]

end MailDispatch.Settings
