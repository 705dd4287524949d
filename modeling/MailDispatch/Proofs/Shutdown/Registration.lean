import MailDispatch.Proofs.Shutdown.Steps

/-! # Registration against shutdown

A call that registers looks at the flag under the lock, and the request that counts sets
the flag before it takes the lock. So whoever has seen the flag unset has added its handle
before the list is copied, and whoever gets the lock after that is refused.
-/
namespace MailDispatch.Shutdown.Registration

namespace System

/-! ## The lock -/

theorem inside_atRegistrar {s : System} {i : Nat} {r : Registrar} (here : s.registrars[i]? = some r)
    (q : Registrar) (h : Holder) :
    (s.atRegistrar i q).inside h = if h = .registrar i then q.holds else s.inside h := by
  cases h with
  | registrar j =>
    simp only [inside, atRegistrar, getElem?_set_of_some here]
    by_cases hj : j = i <;> simp [hj]
  | requester j => rfl

theorem inside_atRequester {s : System} {i : Nat} {r : Requester} (here : s.requesters[i]? = some r)
    (q : Requester) (h : Holder) :
    (s.atRequester i q).inside h = if h = .requester i then q.holds else s.inside h := by
  cases h with
  | registrar j => rfl
  | requester j =>
    simp only [inside, atRequester, getElem?_set_of_some here]
    by_cases hj : j = i <;> simp [hj]

/-- Those inside are those who hold the lock. -/
def Exclusive (s : System) : Prop := ∀ h, s.inside h = true ↔ s.holder = some h

namespace Exclusive

variable {s t : System} {h : Holder}

theorem of_keeps (hs : s.Exclusive) (hinside : ∀ g, t.inside g = s.inside g)
    (hholder : t.holder = s.holder) : t.Exclusive := by
  intro g
  rw [hinside, hholder]
  exact hs g

theorem of_takes (hs : s.Exclusive) (free : s.holder = none)
    (hinside : ∀ g, t.inside g = if g = h then true else s.inside g)
    (hholder : t.holder = some h) : t.Exclusive := by
  intro g
  rw [hinside, hholder, Option.some.injEq]
  by_cases hg : g = h
  · simp [hg]
  · have hout : s.inside g ≠ true := by simp [hs g, free]
    simp [hg, hout, Ne.symm hg]

theorem of_releases (hs : s.Exclusive) (held : s.inside h = true)
    (hinside : ∀ g, t.inside g = if g = h then false else s.inside g)
    (hholder : t.holder = none) : t.Exclusive := by
  intro g
  rw [hinside, hholder]
  by_cases hg : g = h
  · simp [hg]
  · have hout : s.inside g ≠ true := fun hin =>
      hg (Option.some.inj (((hs g).mp hin).symm.trans ((hs h).mp held)))
    simp [hg, hout]

theorem step {e : Event} (hs : s.Exclusive) (hstep : Step s e t) : t.Exclusive := by
  cases hstep with
  | registers name =>
    refine hs.of_keeps ?_ rfl
    rintro (j | j)
    · simp only [inside, getElem?_concat]
      by_cases hj : j = s.registrars.length <;> simp [hj, Registrar.holds]
    · rfl
  | requests =>
    refine hs.of_keeps ?_ rfl
    rintro (j | j)
    · rfl
    · simp only [inside, getElem?_concat]
      by_cases hj : j = s.requesters.length <;> simp [hj, Requester.holds]
  | notifies a => exact hs
  | locks here free => exact hs.of_takes free (inside_atRegistrar here _) rfl
  | locksList here free => exact hs.of_takes free (inside_atRequester here _) rfl
  | returns here =>
    exact hs.of_releases (by simp [inside, here, Registrar.holds]) (inside_atRegistrar here _) rfl
  | refuses here =>
    exact hs.of_releases (by simp [inside, here, Registrar.holds]) (inside_atRegistrar here _) rfl
  | releases here =>
    exact hs.of_releases (by simp [inside, here, Requester.holds]) (inside_atRequester here _) rfl
  | admits here _ | denies here _ | adds here =>
    refine hs.of_keeps (fun g => (inside_atRegistrar here _ g).trans ?_) rfl
    split
    · next hg => simp [hg, inside, here, Registrar.holds]
    · rfl
  | comesLate here _ | comesFirst here _ | copies here | signals here | waits here =>
    refine hs.of_keeps (fun g => (inside_atRequester here _ g).trans ?_) rfl
    split
    · next hg => simp [hg, inside, here, Requester.holds]
    · rfl

end Exclusive

/-! ## The request that counts -/

/-- Whoever has begun finds that shutdown is requested, by the one request that counts. -/
structure Single (s : System) : Prop where
  requested : ∀ (i : Nat) (r : Requester), s.requesters[i]? = some r → r ≠ .started →
    s.requested = true
  unique : ∀ (i j : Nat) (r q : Requester), s.requesters[i]? = some r →
    s.requesters[j]? = some q → r.counts = true → q.counts = true → i = j
  exists_counts : s.requested = true → ∃ (i : Nat) (r : Requester),
    s.requesters[i]? = some r ∧ r.counts = true

namespace Single

variable {s t : System}

theorem of_eq (hs : s.Single) (hrequesters : t.requesters = s.requesters)
    (hrequested : t.requested = s.requested) : t.Single := by
  refine ⟨?_, ?_, ?_⟩
  · rw [hrequesters, hrequested]
    exact hs.requested
  · rw [hrequesters]
    exact hs.unique
  · rw [hrequesters, hrequested]
    exact hs.exists_counts

/-- A step of a request after the flag is set. -/
theorem of_moves (hs : s.Single) {i : Nat} {r q : Requester} (here : s.requesters[i]? = some r)
    (set : s.requested = true) (hrequesters : t.requesters = s.requesters.set i q)
    (hrequested : t.requested = s.requested) (hcounts : q.counts = r.counts) : t.Single := by
  have hplaces : ∀ j, t.requesters[j]? = if j = i then some q else s.requesters[j]? := by
    rw [hrequesters]
    exact getElem?_set_of_some here q
  have hback : ∀ (j : Nat) (x : Requester), t.requesters[j]? = some x → x.counts = true →
      ∃ y : Requester, s.requesters[j]? = some y ∧ y.counts = true := by
    intro j x hx hxc
    rw [hplaces] at hx
    split at hx
    · next hj =>
      obtain rfl := Option.some.inj hx
      exact ⟨r, hj ▸ here, hcounts ▸ hxc⟩
    · exact ⟨x, hx, hxc⟩
  refine ⟨fun _ _ _ _ => hrequested.trans set, ?_, ?_⟩
  · intro j k x y hx hy hxc hyc
    obtain ⟨x', hx', hxc'⟩ := hback j x hx hxc
    obtain ⟨y', hy', hyc'⟩ := hback k y hy hyc
    exact hs.unique j k x' y' hx' hy' hxc' hyc'
  · intro _
    obtain ⟨j, x, hx, hxc⟩ := hs.exists_counts set
    by_cases hj : j = i
    · obtain rfl : x = r := Option.some.inj (hx.symm.trans (hj ▸ here))
      exact ⟨i, q, by simp [hplaces], hcounts.trans hxc⟩
    · exact ⟨j, x, by simpa [hplaces, hj] using hx, hxc⟩

theorem comesFirst (hs : s.Single) {i : Nat} (here : s.requesters[i]? = some .started)
    (unset : s.requested = false) :
    ({ s with requested := true }.atRequester i .first).Single := by
  have hplaces : ∀ j, ({ s with requested := true }.atRequester i .first).requesters[j]? =
      if j = i then some .first else s.requesters[j]? :=
    getElem?_set_of_some here .first
  have hstarted : ∀ (j : Nat) (r : Requester), s.requesters[j]? = some r → r.counts = true →
      False := by
    intro j r hr hc
    have hset := hs.requested j r hr (by rintro rfl; cases hc)
    rw [unset] at hset
    cases hset
  refine ⟨fun _ _ _ _ => rfl, ?_, fun _ => ⟨i, .first, by simp [hplaces], rfl⟩⟩
  intro j k r q hr hq hrc hqc
  rw [hplaces] at hr hq
  split at hr
  · next hj =>
    split at hq
    · next hk => rw [hj, hk]
    · exact (hstarted k q hq hqc).elim
  · exact (hstarted j r hr hrc).elim

theorem requests (hs : s.Single) :
    Single { s with requesters := s.requesters ++ [.started] } := by
  have hplaces : ∀ j, (s.requesters ++ [.started])[j]? =
      if j = s.requesters.length then some .started else s.requesters[j]? :=
    getElem?_concat s.requesters .started
  have hold : ∀ (j : Nat) (r : Requester), (s.requesters ++ [.started])[j]? = some r →
      r ≠ .started → s.requesters[j]? = some r := by
    intro j r hr hne
    rw [hplaces] at hr
    split at hr
    · exact absurd (Option.some.inj hr).symm hne
    · exact hr
  have hne : ∀ r : Requester, r.counts = true → r ≠ .started := by
    rintro r hc rfl
    cases hc
  refine ⟨fun j r hr hr' => hs.requested j r (hold j r hr hr') hr', ?_, ?_⟩
  · intro j k r q hr hq hrc hqc
    exact hs.unique j k r q (hold j r hr (hne r hrc)) (hold k q hq (hne q hqc)) hrc hqc
  · intro set
    obtain ⟨j, r, hr, hrc⟩ := hs.exists_counts set
    exact ⟨j, r, List.getElem?_append_left (List.getElem?_eq_some_iff.mp hr).1 ▸ hr, hrc⟩

theorem step {e : Event} (hs : s.Single) (hstep : Step s e t) : t.Single := by
  cases hstep with
  | registers | notifies | locks | admits | denies | adds | returns | refuses =>
    exact hs.of_eq rfl rfl
  | requests => exact hs.requests
  | comesLate here set => exact hs.of_moves here set rfl rfl rfl
  | comesFirst here unset => exact hs.comesFirst here unset
  | locksList here _ | copies here | releases here | signals here | waits here =>
    exact hs.of_moves here (hs.requested _ _ here nofun) rfl rfl rfl

/-- The request that counts is the same one for ever. -/
theorem counts_step {s t : System} {e : Event} (hstep : Step s e t) {i : Nat}
    (h : (s.requesters[i]?).any Requester.counts = true) :
    (t.requesters[i]?).any Requester.counts = true := by
  have hset : ∀ (j : Nat) (r q : Requester), s.requesters[j]? = some r →
      (r.counts = true → q.counts = true) →
        ((s.requesters.set j q)[i]?).any Requester.counts = true := by
    intro j r q here hkeeps
    rw [getElem?_set_of_some here]
    split
    · next hij =>
      rw [hij, here] at h
      exact hkeeps h
    · exact h
  cases hstep with
  | registers | notifies | locks | admits | denies | adds | returns | refuses => exact h
  | requests =>
    obtain ⟨r, hr, hcounts⟩ := (Option.any_eq_true _ _).mp h
    refine (Option.any_eq_true _ _).mpr ⟨r, ?_, hcounts⟩
    exact (List.getElem?_append_left (List.getElem?_eq_some_iff.mp hr).1).trans hr
  | comesLate here => exact hset _ _ _ here nofun
  | comesFirst here | locksList here | copies here | releases here | signals here | waits here =>
    exact hset _ _ _ here fun _ => rfl

end Single

/-! ## The copied list -/

/-- Once the list is copied it is complete for ever, as nobody is about to add a handle, and
whatever of it has no signal yet is still to get one. -/
def Closed (s : System) : Prop :=
  ∀ (i : Nat) (r : Requester) (handles : List Nat), s.requesters[i]? = some r →
    r.copy? = some handles →
      handles = List.range s.handles.length ∧
        (∀ (j : Nat) (name : String), s.registrars[j]? ≠ some (.admitted name)) ∧
        ∀ a ∈ handles, a ∈ r.todo ∨ s.isSignalled a = true

theorem Requester.counts_of_copy? {r : Requester} {handles : List Nat}
    (h : r.copy? = some handles) : r.counts = true := by
  cases r <;> first | rfl | cases h

namespace Closed

variable {s t : System}

/-- A step that neither copies the list nor adds to it. -/
theorem of_step (hs : s.Closed) {e : Event} (hstep : Step s e t)
    (hrequesters : ∀ (i : Nat) (r : Requester) (handles : List Nat),
      t.requesters[i]? = some r → r.copy? = some handles →
        ∃ q : Requester, s.requesters[i]? = some q ∧ q.copy? = some handles ∧
          ∀ a ∈ handles, a ∈ q.todo → a ∈ r.todo ∨ t.isSignalled a = true)
    (hhandles : t.handles.length = s.handles.length)
    (hregistrars : ∀ (j : Nat) (name : String), t.registrars[j]? = some (.admitted name) →
      ∃ k : Nat, s.registrars[k]? = some (.admitted name)) : t.Closed := by
  intro i r handles hr hcopy
  obtain ⟨q, hq, hcopy, htodo⟩ := hrequesters i r handles hr hcopy
  obtain ⟨hall, hshut, hdone⟩ := hs i q handles hq hcopy
  refine ⟨hall.trans (by rw [hhandles]), ?_, ?_⟩
  · intro j name hj
    obtain ⟨k, hk⟩ := hregistrars j name hj
    exact hshut k name hk
  · intro a ha
    rcases hdone a ha with ha' | ha'
    · exact htodo a ha ha'
    · exact .inr (isSignalled_step hstep ha')

/-- A registrar goes on, and is not admitted thereby. -/
theorem of_registrar (hs : s.Closed) {e : Event} (hstep : Step s e t) {i : Nat}
    {r q : Registrar} (here : s.registrars[i]? = some r)
    (hregistrars : t.registrars = s.registrars.set i q) (hrequesters : t.requesters = s.requesters)
    (hhandles : t.handles.length = s.handles.length) (hq : ∀ name, q ≠ .admitted name) :
    t.Closed := by
  refine hs.of_step hstep ?_ hhandles ?_
  · intro j x handles hx hcopy
    exact ⟨x, hrequesters ▸ hx, hcopy, fun a _ ha => .inl ha⟩
  · intro j name hj
    rw [hregistrars, getElem?_set_of_some here] at hj
    split at hj
    · exact absurd (Option.some.inj hj) (hq name)
    · exact ⟨j, hj⟩

/-- A requester goes on with the copy that it has. -/
theorem of_requester (hs : s.Closed) {e : Event} (hstep : Step s e t) {i : Nat}
    {r q : Requester} (here : s.requesters[i]? = some r)
    (hrequesters : t.requesters = s.requesters.set i q) (hregistrars : t.registrars = s.registrars)
    (hhandles : t.handles.length = s.handles.length)
    (hq : ∀ handles, q.copy? = some handles → r.copy? = some handles ∧
      ∀ a ∈ handles, a ∈ r.todo → a ∈ q.todo ∨ t.isSignalled a = true) : t.Closed := by
  refine hs.of_step hstep ?_ hhandles fun j name hj => ⟨j, hregistrars ▸ hj⟩
  intro j x handles hx hcopy
  rw [hrequesters, getElem?_set_of_some here] at hx
  split at hx
  · next hj =>
    obtain rfl := Option.some.inj hx
    obtain ⟨hr, htodo⟩ := hq handles hcopy
    exact ⟨r, hj ▸ here, hr, htodo⟩
  · exact ⟨x, hx, hcopy, fun a _ ha => .inl ha⟩

theorem requests (hs : s.Closed) :
    Closed { s with requesters := s.requesters ++ [.started] } := by
  refine hs.of_step .requests ?_ rfl fun j name hj => ⟨j, hj⟩
  intro i r handles hr hcopy
  simp only [getElem?_concat] at hr
  split at hr
  · obtain rfl := Option.some.inj hr
    cases hcopy
  · exact ⟨r, hr, hcopy, fun a _ ha => .inl ha⟩

theorem registers (hs : s.Closed) (name : String) :
    Closed { s with registrars := s.registrars ++ [.started name] } := by
  refine hs.of_step (.registers name)
    (fun i r handles hr hcopy => ⟨r, hr, hcopy, fun a _ ha => .inl ha⟩) rfl ?_
  intro j name' hj
  simp only [getElem?_concat] at hj
  split at hj
  · cases hj
  · exact ⟨j, hj⟩

/-- Who copies holds the lock, so that nobody is admitted meanwhile. -/
theorem copies (hs : s.Closed) (hexclusive : s.Exclusive) {i : Nat}
    (here : s.requesters[i]? = some .locked) :
    (s.atRequester i (.copied (List.range s.handles.length))).Closed := by
  intro j r handles hr hcopy
  have hholder : s.holder = some (.requester i) :=
    (hexclusive (.requester i)).mp (by simp [inside, here, Requester.holds])
  have hshut : ∀ (k : Nat) (name : String), s.registrars[k]? ≠ some (.admitted name) := by
    intro k name hk
    have hother := (hexclusive (.registrar k)).mp (by simp [inside, hk, Registrar.holds])
    rw [hholder] at hother
    cases hother
  simp only [atRequester, getElem?_set_of_some here] at hr
  split at hr
  · obtain rfl := Option.some.inj hr
    obtain rfl := Option.some.inj hcopy
    exact ⟨rfl, hshut, fun a ha => .inl ha⟩
  · exact hs j r handles hr hcopy

theorem step {e : Event} (hs : s.Closed) (hexclusive : s.Exclusive) (hsingle : s.Single)
    (hstep : Step s e t) : t.Closed := by
  cases hstep with
  | registers name => exact hs.registers name
  | requests => exact hs.requests
  | notifies a =>
    exact hs.of_step (.notifies a) (fun i r handles hr hcopy => ⟨r, hr, hcopy, fun a _ ha => .inl ha⟩)
      (List.length_modify ..) fun j name hj => ⟨j, hj⟩
  | locks here free => exact hs.of_registrar (.locks here free) here rfl rfl rfl nofun
  | denies here set => exact hs.of_registrar (.denies here set) here rfl rfl rfl nofun
  | returns here => exact hs.of_registrar (.returns here) here rfl rfl rfl nofun
  | refuses here => exact hs.of_registrar (.refuses here) here rfl rfl rfl nofun
  | admits here unset =>
    -- The flag is not set, so nobody has a copy.
    intro i r handles hr hcopy
    have hcounts := Requester.counts_of_copy? hcopy
    have hset := hsingle.requested i r hr (by rintro rfl; cases hcounts)
    rw [unset] at hset
    cases hset
  | adds here =>
    intro i r handles hr hcopy
    exact absurd here ((hs i r handles hr hcopy).2.1 _ _)
  | comesLate here set => exact hs.of_requester (.comesLate here set) here rfl rfl rfl nofun
  | comesFirst here unset => exact hs.of_requester (.comesFirst here unset) here rfl rfl rfl nofun
  | locksList here free => exact hs.of_requester (.locksList here free) here rfl rfl rfl nofun
  | copies here => exact hs.copies hexclusive here
  | releases here =>
    refine hs.of_requester (.releases here) here rfl rfl rfl ?_
    rintro handles hcopy
    exact ⟨hcopy, fun a _ ha => .inl (Option.some.inj hcopy ▸ ha)⟩
  | @signals i b handles todo here =>
    refine hs.of_requester (.signals here) here rfl rfl (List.length_modify ..) ?_
    rintro handles' hcopy
    obtain rfl := Option.some.inj hcopy
    refine ⟨rfl, fun a ha htodo => ?_⟩
    rcases List.mem_cons.mp htodo with rfl | htodo
    · right
      rw [(hs i _ handles here rfl).1, List.mem_range] at ha
      exact s.isSignalled_signal ha
    · exact .inl htodo
  | waits here =>
    refine hs.of_requester (.waits here) here rfl rfl rfl ?_
    rintro handles' hcopy
    exact ⟨hcopy, fun a _ ha => .inl ha⟩

end Closed

/-- The flag is set before anybody gets a signal. -/
theorem requested_of_isSignalled_step {s t : System} {e : Event} (hsingle : s.Single)
    (hs : ∀ a, s.isSignalled a = true → s.requested = true) (hstep : Step s e t) :
    ∀ a, t.isSignalled a = true → t.requested = true := by
  cases hstep with
  | comesFirst => exact fun _ _ => rfl
  | signals here => exact fun _ _ => hsingle.requested _ _ here nofun
  | adds here =>
    intro a ha
    obtain ⟨x, hx, hsignalled⟩ := isSignalled_eq_true.mp ha
    simp only [add, atRegistrar, getElem?_concat] at hx
    split at hx
    · obtain rfl := Option.some.inj hx
      cases hsignalled
    · exact hs a (isSignalled_eq_true.mpr ⟨x, hx, hsignalled⟩)
  | notifies b =>
    intro a ha
    obtain ⟨x, hx, hsignalled⟩ := isSignalled_eq_true.mp ha
    simp only [notify, List.getElem?_modify] at hx
    obtain ⟨y, hy, rfl⟩ := Option.map_eq_some_iff.mp hx
    refine hs a (isSignalled_eq_true.mpr ⟨y, hy, ?_⟩)
    split at hsignalled <;> exact hsignalled
  | registers | requests | locks | admits | denies | returns | refuses | comesLate | locksList
  | copies | releases | waits => exact hs

/-! ## All together -/

/-- Everything that holds of a system at all times. -/
structure Guarded (s : System) : Prop where
  exclusive : s.Exclusive
  single : s.Single
  closed : s.Closed
  requested_of_isSignalled : ∀ a, s.isSignalled a = true → s.requested = true

namespace Guarded

variable {s t : System}

theorem start : Guarded {} := by
  refine ⟨?_, ⟨?_, ?_, ?_⟩, ?_, ?_⟩
  · rintro (i | i) <;> simp [inside]
  · intro i r hr
    simp at hr
  · intro i j r q hr
    simp at hr
  · exact nofun
  · intro i r handles hr
    simp at hr
  · intro a ha
    simp [isSignalled] at ha

theorem step {e : Event} (hs : s.Guarded) (hstep : Step s e t) : t.Guarded :=
  ⟨hs.exclusive.step hstep, hs.single.step hstep,
    hs.closed.step hs.exclusive hs.single hstep,
    requested_of_isSignalled_step hs.single hs.requested_of_isSignalled hstep⟩

theorem run (hs : s.Guarded) {es : List Event} (h : s.run es = some t) : t.Guarded :=
  run_keeps (fun _ _ _ hu hstep => hu.step (step_of_eq_some hstep)) hs h

end Guarded

theorem Named.start : Named [] {} := by
  refine ⟨rfl, ?_⟩
  intro j r hr
  simp at hr

/-! ## Calls come to an end -/

/-- A registrar alone goes on until it has released the lock. -/
def Leaves (s : System) (i : Nat) (r : Registrar) (t : System) : Prop :=
  (∃ es, s.run es = some t) ∧ t.holder = none ∧ t.requested = s.requested ∧
    t.registrars[i]? = some r ∧ ∀ j, j ≠ i → t.registrars[j]? = s.registrars[j]?

theorem Leaves.after {s t u : System} {i : Nat} {r q : Registrar} {e : Event}
    (hstep : Step s e u) (hrequested : u.requested = s.requested)
    (hregistrars : u.registrars = s.registrars.set i q) (h : u.Leaves i r t) : s.Leaves i r t := by
  obtain ⟨⟨es, hrun⟩, hfree, hsame, hend, hothers⟩ := h
  refine ⟨⟨e :: es, by rw [run_cons_of_step hstep, hrun]⟩, hfree, hsame.trans hrequested, hend, ?_⟩
  intro j hj
  rw [hothers j hj, hregistrars, List.getElem?_set_ne (Ne.symm hj)]

theorem leaves_release {s : System} {i : Nat} {r q : Registrar} (here : s.registrars[i]? = some r)
    (hstep : Step s (.registrar i) (s.release.atRegistrar i q)) :
    ∃ t, s.Leaves i q t := by
  have hplaces := getElem?_set_of_some here q
  refine ⟨_, ⟨[.registrar i], run_cons_of_step hstep []⟩, rfl, rfl, ?_, ?_⟩
  · exact (hplaces i).trans (if_pos rfl)
  · intro j hj
    exact (hplaces j).trans (if_neg hj)

theorem leaves_of_denied {s : System} {i : Nat} {r : Refusal}
    (here : s.registrars[i]? = some (.denied r)) : ∃ t, s.Leaves i (.refused r) t :=
  leaves_release here (.refuses here)

theorem leaves_of_locked {s : System} {i : Nat} {name : String}
    (here : s.registrars[i]? = some (.locked name)) (set : s.requested = true) :
    ∃ t, s.Leaves i (.refused ⟨name⟩) t := by
  have hdenied : (s.atRegistrar i (.denied ⟨name⟩)).registrars[i]? = some (.denied ⟨name⟩) :=
    (getElem?_set_of_some here _ i).trans (if_pos rfl)
  obtain ⟨t, ht⟩ := leaves_of_denied hdenied
  exact ⟨t, ht.after (.denies here set) rfl rfl⟩

theorem leaves_of_started {s : System} {i : Nat} {name : String}
    (here : s.registrars[i]? = some (.started name)) (free : s.holder = none)
    (set : s.requested = true) : ∃ t, s.Leaves i (.refused ⟨name⟩) t := by
  have hlocked : ({ s with holder := some (.registrar i) }.atRegistrar i
      (.locked name)).registrars[i]? = some (.locked name) :=
    (getElem?_set_of_some here _ i).trans (if_pos rfl)
  obtain ⟨t, ht⟩ := leaves_of_locked hlocked set
  exact ⟨t, ht.after (.locks here free) rfl rfl⟩

theorem waiting_step {s t : System} {e : Event} (hstep : Step s e t) {i : Nat} {handles : List Nat}
    (h : s.requesters[i]? = some (.waiting handles)) :
    t.requesters[i]? = some (.waiting handles) := by
  have hset : ∀ (j : Nat) (r q : Requester), s.requesters[j]? = some r → r ≠ .waiting handles →
      (s.requesters.set j q)[i]? = some (.waiting handles) := by
    intro j r q here hne
    rw [getElem?_set_of_some here, if_neg, h]
    rintro rfl
    exact hne (Option.some.inj (here.symm.trans h))
  cases hstep with
  | registers | notifies | locks | admits | denies | adds | returns | refuses => exact h
  | requests => exact (List.getElem?_append_left (List.getElem?_eq_some_iff.mp h).1).trans h
  | comesLate here | comesFirst here | locksList here | copies here | releases here | signals here
  | waits here => exact hset _ _ _ here nofun

section
variable {s : System} {i : Nat} {handles : List Nat}

/-- Once shutdown waits, whoever holds the lock can release it. -/
theorem exists_run_free (hs : s.Guarded) (hwaiting : s.requesters[i]? = some (.waiting handles))
    {j : Nat} {name : String} (here : s.registrars[j]? = some (.started name)) :
    ∃ es t, s.run es = some t ∧ t.holder = none ∧ t.requested = true ∧
      t.registrars[j]? = some (.started name) := by
  have set : s.requested = true := hs.single.requested i _ hwaiting nofun
  have hleaves : ∀ (k : Nat) (r q : Registrar), s.registrars[k]? = some r → r.holds = true →
      (∃ t, s.Leaves k q t) → ∃ es t, s.run es = some t ∧ t.holder = none ∧ t.requested = true ∧
        t.registrars[j]? = some (.started name) := by
    rintro k r q hk hholds ⟨t, ⟨es, hrun⟩, hfree, hsame, -, hothers⟩
    have hjk : j ≠ k := by
      rintro rfl
      obtain rfl := Option.some.inj (here.symm.trans hk)
      cases hholds
    exact ⟨es, t, hrun, hfree, hsame.trans set, (hothers j hjk).trans here⟩
  cases hholder : s.holder with
  | none => exact ⟨[], s, rfl, hholder, set, here⟩
  | some h =>
    have hinside := (hs.exclusive h).mpr hholder
    cases h with
    | registrar k =>
      obtain ⟨r, hk, hholds⟩ := (Option.any_eq_true _ _).mp hinside
      cases r with
      | started | registered | refused => cases hholds
      | locked name' => exact hleaves k _ _ hk rfl (leaves_of_locked hk set)
      | admitted name' => exact absurd hk ((hs.closed i _ handles hwaiting rfl).2.1 k name')
      | denied r => exact hleaves k _ _ hk rfl (leaves_of_denied hk)
      | added a => exact hleaves k _ _ hk rfl (leaves_release hk (.returns hk))
    | requester k =>
      obtain ⟨r, hk, hholds⟩ := (Option.any_eq_true _ _).mp hinside
      have hcounts : r.counts = true := by cases r <;> first | rfl | cases hholds
      obtain rfl := hs.single.unique k i r _ hk hwaiting hcounts rfl
      obtain rfl := Option.some.inj (hk.symm.trans hwaiting)
      cases hholds

/-- Once shutdown waits, a call has a handle of the list, or it can only be refused. -/
theorem listed_or_refused (hs : s.Guarded) (hwaiting : s.requesters[i]? = some (.waiting handles))
    {calls : List String} (hnamed : s.Named calls) {j : Nat} {name : String}
    (hcall : calls[j]? = some name) :
    (∃ a ∈ handles, s.registrars[j]? = some (.added a) ∨ s.registrars[j]? = some (.registered a)) ∨
      (∀ a, s.registrars[j]? ≠ some (.registered a)) ∧
        (∀ r, s.registrars[j]? = some (.refused r) → r = ⟨name⟩) ∧
          ∃ es t, s.run es = some t ∧ t.registrars[j]? = some (.refused ⟨name⟩) := by
  have set : s.requested = true := hs.single.requested i _ hwaiting nofun
  obtain ⟨hall, hshut, -⟩ := hs.closed i _ handles hwaiting rfl
  have hlt : j < s.registrars.length := by
    rw [hnamed.length_eq]
    exact (List.getElem?_eq_some_iff.mp hcall).1
  have here := List.getElem?_eq_getElem hlt
  generalize s.registrars[j] = r at here
  have hname := (hnamed.name?_eq j r here).trans hcall
  have hlisted : ∀ a, (s.handles[a]?).map Handle.name = some name → a ∈ handles := by
    intro a ha
    obtain ⟨x, hx, -⟩ := Option.map_eq_some_iff.mp ha
    rw [hall, List.mem_range]
    exact (List.getElem?_eq_some_iff.mp hx).1
  rw [here]
  cases r with
  | added a => exact .inl ⟨a, hlisted a hname, .inl rfl⟩
  | registered a => exact .inl ⟨a, hlisted a hname, .inr rfl⟩
  | admitted name' => exact absurd here (hshut j name')
  | started name' =>
    obtain rfl := Option.some.inj hname
    obtain ⟨es, t, hrun, hfree, hset, hstarted⟩ := exists_run_free hs hwaiting here
    obtain ⟨u, ⟨fs, hrun'⟩, -, -, hrefused, -⟩ := leaves_of_started hstarted hfree hset
    exact .inr ⟨nofun, nofun, es ++ fs, u, by rw [run_append, hrun, Option.bind_some, hrun'],
      hrefused⟩
  | locked name' =>
    obtain rfl := Option.some.inj hname
    obtain ⟨u, ⟨es, hrun⟩, -, -, hrefused, -⟩ := leaves_of_locked here set
    exact .inr ⟨nofun, nofun, es, u, hrun, hrefused⟩
  | denied r =>
    obtain rfl := Option.some.inj hname
    obtain ⟨u, ⟨es, hrun⟩, -, -, hrefused, -⟩ := leaves_of_denied here
    exact .inr ⟨nofun, nofun, es, u, hrun, hrefused⟩
  | refused r =>
    obtain rfl := Option.some.inj hname
    refine .inr ⟨nofun, ?_, [], s, rfl, here⟩
    rintro q ⟨⟩
    rfl

end

/-- Whatever the order of the steps of all that register, request shutdown and notify: one request
counts and every other one goes away without effect. When that one begins to wait, its list holds
every handle that was or will ever be given out, with its signal, and whoever is not in the list
can only be refused under the name that it came with. Nobody has a signal before shutdown is
requested, and neither signals nor notifications are ever taken back. -/
theorem no_handle_slips_past_shutdown {es : List Event} {s : System} (h : run {} es = some s) :
    ((∃ r ∈ s.requesters, r ≠ .started) → ∃ i : Nat, ∀ fs t, s.run fs = some t →
      (∃ r, t.requesters[i]? = some r ∧ r.counts = true) ∧
        ∀ (j : Nat) (r : Requester), t.requesters[j]? = some r → r.counts = true → j = i) ∧
    (∀ i : Nat, s.requesters[i]? = some .started → s.requested = true →
      s.step (.requester i) = some (s.atRequester i .late)) ∧
    (∀ i : Nat, s.requesters[i]? = some .late → s.step (.requester i) = none) ∧
    (∀ (i : Nat) (handles : List Nat), s.requesters[i]? = some (.waiting handles) →
      (∀ a ∈ handles, s.isSignalled a = true) ∧
      ∀ fs t, s.run fs = some t →
        (∀ j a : Nat, t.registrars[j]? = some (.registered a) → a ∈ handles) ∧
        ∀ (j : Nat) (name : String), (names (es ++ fs))[j]? = some name →
          (∃ a ∈ handles,
            t.registrars[j]? = some (.added a) ∨ t.registrars[j]? = some (.registered a)) ∨
          (∀ a, t.registrars[j]? ≠ some (.registered a)) ∧
            (∀ r, t.registrars[j]? = some (.refused r) → r = ⟨name⟩) ∧
            ∃ gs u, t.run gs = some u ∧ u.registrars[j]? = some (.refused ⟨name⟩)) ∧
    (∀ a, s.isSignalled a = true → .request ∈ es) ∧
    ∀ fs t, s.run fs = some t → ∀ (a : Nat) (x : Handle), s.handles[a]? = some x →
      ∃ y : Handle, t.handles[a]? = some y ∧ y.name = x.name ∧
        (x.signalled = true → y.signalled = true) ∧ (x.notified = true → y.notified = true) := by
  have hs : s.Guarded := Guarded.start.run h
  have hnamed : s.Named (names es) := Named.start.run h
  refine ⟨?_, fun i here set => step_iff.mpr (.comesLate here set), ?_, ?_, ?_,
    fun fs t hrun a x hx => leadsTo_run hrun hx⟩
  · rintro ⟨r, hr, hne⟩
    obtain ⟨k, hk⟩ := List.getElem?_of_mem hr
    obtain ⟨i, q, hq, hcounts⟩ := hs.single.exists_counts (hs.single.requested k r hk hne)
    refine ⟨i, fun fs t hrun => ?_⟩
    have hlater := run_keeps (fun _ _ _ hu hstep => Single.counts_step (step_of_eq_some hstep) hu)
      ((Option.any_eq_true _ _).mpr ⟨q, hq, hcounts⟩) hrun
    obtain ⟨x, hx, hxc⟩ := (Option.any_eq_true _ _).mp hlater
    exact ⟨⟨x, hx, hxc⟩, fun j y hy hyc => (hs.run hrun).single.unique j i y x hy hx hyc hxc⟩
  · intro i here
    simp [step, stepRequester, here]
  · intro i handles hwaiting
    refine ⟨?_, ?_⟩
    · intro a ha
      rcases (hs.closed i _ handles hwaiting rfl).2.2 a ha with htodo | hsignalled
      · cases htodo
      · exact hsignalled
    intro fs t hrun
    have ht : t.Guarded := hs.run hrun
    have hlater : t.requesters[i]? = some (.waiting handles) :=
      run_keeps (fun _ _ _ hu hstep => waiting_step (step_of_eq_some hstep) hu) hwaiting hrun
    have hcalls : t.Named (names (es ++ fs)) := by
      have hcalls := hnamed.run hrun
      rwa [names, names, ← List.filterMap_append] at hcalls
    refine ⟨?_, fun j name => listed_or_refused ht hlater hcalls⟩
    intro j a hj
    obtain ⟨name, hname⟩ := hcalls.exists_name hj
    obtain ⟨x, hx, -⟩ := Option.map_eq_some_iff.mp hname
    rw [(ht.closed i _ handles hlater rfl).1, List.mem_range]
    exact (List.getElem?_eq_some_iff.mp hx).1
  · intro a ha
    obtain ⟨i, r, hr, -⟩ := hs.single.exists_counts (hs.requested_of_isSignalled a ha)
    have hlength := length_requesters_run h
    have hpos : i < s.requesters.length := (List.getElem?_eq_some_iff.mp hr).1
    rw [hlength] at hpos
    exact List.count_pos_iff.mp (by simpa using Nat.zero_lt_of_lt hpos)

/-- The first call reads the flag before shutdown is requested and adds its handle afterwards; the
second one comes while the list is being copied. -/
theorem overlapping_registration_is_listed :
    let es : List Event := [.register "first", .registrar 0, .registrar 0, .request, .requester 0,
      .register "second", .registrar 0, .registrar 0, .requester 0, .requester 0, .requester 0,
      .requester 0, .requester 0]
    let fs : List Event := [.registrar 1, .registrar 1]
    ∃ s t, run {} es = some s ∧ s.requesters[0]? = some (.waiting [0]) ∧
      s.isSignalled 0 = true ∧ s.run fs = some t ∧ (names (es ++ fs))[1]? = some "second" ∧
      ∃ gs u, t.run gs = some u ∧ u.registrars[1]? = some (.refused ⟨"second"⟩) := by
  intro es fs
  have hrun : run {} es = some _ := rfl
  obtain ⟨-, -, -, hwaits, -⟩ := no_handle_slips_past_shutdown hrun
  obtain ⟨hsignalled, hlater⟩ := hwaits 0 [0] rfl
  have hcall : (names (es ++ fs))[1]? = some "second" := rfl
  rcases (hlater fs _ rfl).2 1 "second" hcall with ⟨a, -, ha | ha⟩ | ⟨-, -, hrefused⟩
  · cases ha
  · cases ha
  · exact ⟨_, _, rfl, rfl, hsignalled 0 (.head _), rfl, hcall, hrefused⟩

end System
end MailDispatch.Shutdown.Registration
