import MailDispatch.Proofs.Settings.Merging

/-! # Files over files

Over the defaults every part is there as a table, and ordinary documents keep it so. A setting
then has the value that the last file gives it, and its default where no file gives one. What
an earlier file says about it does not even have to be a value of its form.
-/
namespace MailDispatch.Settings
open Text

/-! ## Trees with all parts -/

/-- The value of a setting, given what the tree has for it. -/
def Item.valueOf (a : Item) : Option Tree → Except Problem Value
  | some t => a.form.read t
  | none => .ok (get {} a)

/-- What a tree has for a setting, by the names of its part and its field. -/
def Item.fieldOf (a : Item) (t : Tree) : Option Tree := t.at? a.part.name a.name

theorem fieldOf_table {ms fs : List (String × Tree)} {a : Item}
    (h : ms.lookup a.part.name = some (.table fs)) :
    a.fieldOf (.table ms) = fs.lookup a.name := by
  simp only [Item.fieldOf, Tree.at?, Tree.members, h, Option.getD_some]

theorem readFrom_of_hasParts {t : Tree} (h : t.HasParts) :
    ∃ top, Section.of t = .ok top ∧ ∀ a : Item, a.readFrom top = a.valueOf (a.fieldOf t) := by
  obtain ⟨ms, rfl, hparts⟩ := h
  refine ⟨.named ms, rfl, ?_⟩
  intro a
  obtain ⟨fs, hfs⟩ := hparts a.part
  rw [fieldOf_table hfs, Item.readFrom]
  simp only [Section.field, Section.get?, hfs]
  change a.readIn (.named fs) = _
  simp only [Item.readIn, Section.field, Section.get?]
  cases fs.lookup a.name with
  | none => rfl
  | some v => rfl

theorem ofTree_eq_ok_of_hasParts {t : Tree} (h : t.HasParts) {s : Settings} :
    ofTree t = .ok s ↔ ∀ a : Item, a.valueOf (a.fieldOf t) = .ok (s.get a) := by
  obtain ⟨top, htop, hread⟩ := readFrom_of_hasParts h
  rw [ofTree_eq_ok_iff]
  constructor
  · rintro ⟨top', htop', hitems⟩ a
    rw [htop] at htop'
    cases htop'
    rw [← hread]
    exact hitems a
  · intro hitems
    refine ⟨top, htop, ?_⟩
    intro a
    rw [hread]
    exact hitems a

/-- Two parts have the same values for their settings. -/
def SameFields (p : Part) (fs fs' : List (String × Tree)) : Prop :=
  ∀ a : Item, a.part = p → fs.lookup a.name = fs'.lookup a.name

theorem readGlobal_congr {fs fs' : List (String × Tree)} (h : SameFields .global fs fs') :
    readGlobal (.table fs) = readGlobal (.table fs') := by
  have htimeout : fs.lookup "shutdown_timeout_seconds" = _ := h .shutdownTimeout rfl
  have hstorage : fs.lookup "storage" = _ := h .storage rfl
  simp only [readGlobal, Section.of, bind, Except.bind, Section.field, Section.get?, htimeout,
    hstorage]
  rfl

theorem readServer_congr {fs fs' : List (String × Tree)} (h : SameFields .server fs fs') :
    readServer (.table fs) = readServer (.table fs') := by
  have hport : fs.lookup "port" = _ := h .serverPort rfl
  have htimeout : fs.lookup "shutdown_timeout_seconds" = _ := h .serverTimeout rfl
  simp only [readServer, Section.of, bind, Except.bind, Section.field, Section.get?, hport,
    htimeout]
  rfl

theorem readPostgres_congr {fs fs' : List (String × Tree)} (h : SameFields .postgres fs fs') :
    readPostgres (.table fs) = readPostgres (.table fs') := by
  have hhost : fs.lookup "host" = _ := h .host rfl
  have hport : fs.lookup "port" = _ := h .port rfl
  have huser : fs.lookup "user" = _ := h .user rfl
  have hpassword : fs.lookup "password" = _ := h .password rfl
  have hdatabase : fs.lookup "database" = _ := h .database rfl
  have htimeout : fs.lookup "default_timeout_seconds" = _ := h .postgresTimeout rfl
  have hmost : fs.lookup "max_connections" = _ := h .maxConnections rfl
  simp only [readPostgres, Section.of, bind, Except.bind, Section.field, Section.get?, hhost,
    hport, huser, hpassword, hdatabase, htimeout, hmost]
  rfl

theorem readSeconds_congr {a : Item} {fs fs' : List (String × Tree)}
    (h : SameFields a.part fs fs') (d : Nat) :
    readSeconds a.name d (.table fs) = readSeconds a.name d (.table fs') := by
  simp only [readSeconds, Section.of, bind, Except.bind, Section.field, Section.get?, h a rfl]

/-- Only what a tree has for the settings counts, also for the problem that is found. -/
theorem ofTree_congr {t t' : Tree} (h : t.HasParts) (h' : t'.HasParts)
    (hsame : ∀ a : Item, a.fieldOf t = a.fieldOf t') : ofTree t = ofTree t' := by
  obtain ⟨ms, rfl, hparts⟩ := h
  obtain ⟨ms', rfl, hparts'⟩ := h'
  choose fs hfs using hparts
  choose fs' hfs' using hparts'
  have hfields : ∀ p, SameFields p (fs p) (fs' p) := by
    rintro _ a rfl
    rw [← fieldOf_table (hfs a.part), ← fieldOf_table (hfs' a.part)]
    exact hsame a
  have hpart : ∀ (p : Part) {α : Type} (d : α) (read : Tree → Except Problem α),
      read (.table (fs p)) = read (.table (fs' p)) →
      Section.field (.named ms) p.name p.place d read =
        Section.field (.named ms') p.name p.place d read := by
    intro p α d read hread
    simp only [Section.field, Section.get?, hfs, hfs', hread]
  have hglobal := hpart .global {} _ (readGlobal_congr (hfields _))
  have hserver := hpart .server {} _ (readServer_congr (hfields _))
  have hpostgres := hpart .postgres {} _ (readPostgres_congr (hfields _))
  have hremover := hpart .remover 7200 _ (readSeconds_congr (a := .staleness) (hfields _) 7200)
  have hcleanup := hpart .cleanup 300 _ (readSeconds_congr (a := .period) (hfields _) 300)
  simp only [Part.name, Part.place, Item.name] at hglobal hserver hpostgres hremover hcleanup
  simp only [ofTree, Section.of, bind, Except.bind, hglobal, hserver, hpostgres, hremover, hcleanup]

/-! ## What files say -/

variable {files : String → Option Octets} {paths : List String}

/-- A file that can be read as an ordinary document. -/
def OrdinaryFile (files : String → Option Octets) (path : String) : Prop :=
  ∃ d, readFile files path = .ok d ∧ d.Ordinary

instance : DecidablePred (OrdinaryFile files) := fun path =>
  match h : readFile files path with
  | .ok d => decidable_of_iff d.Ordinary ⟨fun hd => ⟨d, h, hd⟩, fun ⟨_, hd, hordinary⟩ =>
      Except.ok.inj (h.symm.trans hd) ▸ hordinary⟩
  | .error _ => isFalse fun ⟨_, hd, _⟩ => nomatch h.symm.trans hd

/-- What a file says about a setting. -/
def said (files : String → Option Octets) (a : Item) (path : String) : Option Tree :=
  match readFile files path with
  | .ok d => a.fieldOf d
  | .error _ => none

/-- What the last file that says something about a setting says about it. -/
def lastSaid (files : String → Option Octets) (a : Item) (paths : List String) : Option Tree :=
  paths.reverse.findSome? (said files a)

theorem lastSaid_append {a : Item} {ps qs : List String} :
    lastSaid files a (ps ++ qs) = (lastSaid files a qs).or (lastSaid files a ps) := by
  rw [lastSaid, List.reverse_append, List.findSome?_append]
  rfl

theorem lastSaid_singleton {a : Item} {path : String} :
    lastSaid files a [path] = said files a path := by
  rw [lastSaid, List.reverse_singleton, List.findSome?_singleton]

theorem lastSaid_cons {a : Item} {path : String} :
    lastSaid files a (path :: paths) = (lastSaid files a paths).or (said files a path) := by
  rw [← List.singleton_append, lastSaid_append, lastSaid_singleton]

theorem lastSaid_eq_none_iff {a : Item} :
    lastSaid files a paths = none ↔ ∀ path ∈ paths, said files a path = none := by
  simp only [lastSaid, List.findSome?_eq_none_iff, List.mem_reverse]

theorem layered_of_ordinary {t : Tree} (ht : t.HasParts)
    (h : ∀ path ∈ paths, OrdinaryFile files path) :
    ∃ t', layered files t paths = .ok t' ∧ t'.HasParts ∧
      ∀ a, a.fieldOf t' = (lastSaid files a paths).or (a.fieldOf t) := by
  induction paths generalizing t with
  | nil => exact ⟨t, rfl, ht, fun a => rfl⟩
  | cons path paths ih =>
    obtain ⟨d, hd, hordinary⟩ := h path List.mem_cons_self
    obtain ⟨t', ht', hparts, hfields⟩ :=
      ih (ht.overlay hordinary) fun p hp => h p (List.mem_cons_of_mem _ hp)
    refine ⟨t', ?_, hparts, ?_⟩
    · rw [layered, hd]
      exact ht'
    · intro a
      have hsaid : said files a path = a.fieldOf d := by rw [said, hd]
      have hover : a.fieldOf (overlay t d) = (a.fieldOf d).or (a.fieldOf t) :=
        at?_overlay hordinary t a.part a.name
      rw [hfields, hover, lastSaid_cons, hsaid, Option.or_assoc]

/-! ## Over the defaults -/

theorem hasParts_defaults : defaults.HasParts := by
  refine ⟨_, rfl, ?_⟩
  intro p
  cases p <;> exact ⟨_, rfl⟩

theorem valueOf_defaults (a : Item) : a.valueOf (a.fieldOf defaults) = .ok (get {} a) := by
  cases a <;> rfl

theorem valueOf_or_defaults (a : Item) (o : Option Tree) :
    a.valueOf (o.or (a.fieldOf defaults)) = a.valueOf o := by
  cases o with
  | none => exact valueOf_defaults a
  | some t => rfl

/-- What is loaded from ordinary files, setting by setting. -/
theorem load_eq_ok_iff (h : ∀ path ∈ paths, OrdinaryFile files path) {s : Settings} :
    load files paths = .ok s ↔
      s.cleanupPeriodSeconds ≠ 0 ∧
        ∀ a : Item, a.valueOf (lastSaid files a paths) = .ok (s.get a) := by
  obtain ⟨t, ht, hparts, hfields⟩ := layered_of_ordinary hasParts_defaults h
  rw [load_eq_bind ht, bind_eq_ok_iff]
  simp only [ofTree_eq_ok_of_hasParts hparts, check_eq_ok_iff, hfields, valueOf_or_defaults]
  constructor
  · rintro ⟨s', hitems, hperiod, rfl⟩
    exact ⟨hperiod, hitems⟩
  · rintro ⟨hperiod, hitems⟩
    exact ⟨s, hitems, hperiod, rfl⟩

/-- What is loaded from ordinary files depends only on what the last files say. -/
theorem load_congr {paths' : List String} (h : ∀ path ∈ paths, OrdinaryFile files path)
    (h' : ∀ path ∈ paths', OrdinaryFile files path)
    (hsame : ∀ a, lastSaid files a paths = lastSaid files a paths') :
    load files paths = load files paths' := by
  obtain ⟨t, ht, hparts, hfields⟩ := layered_of_ordinary hasParts_defaults h
  obtain ⟨t', ht', hparts', hfields'⟩ := layered_of_ordinary hasParts_defaults h'
  have htree : ofTree t = ofTree t' := by
    apply ofTree_congr hparts hparts'
    intro a
    rw [hfields, hfields', hsame]
  rw [load_eq_bind ht, load_eq_bind ht', htree]

/-! ## Which file decides -/

/-- The value is that of the last file that says something about the setting, read in the form
of the setting, or the default where no file says anything about it. -/
def FromLast (files : String → Option Octets) (paths : List String) (a : Item) (v : Value) :
    Prop :=
  (∃ before path after t, paths = before ++ path :: after ∧ said files a path = some t ∧
    (∀ later ∈ after, said files a later = none) ∧ a.form.read t = .ok v) ∨
  ((∀ path ∈ paths, said files a path = none) ∧ v = get {} a)

theorem fromLast_iff {a : Item} {v : Value} :
    FromLast files paths a v ↔ a.valueOf (lastSaid files a paths) = .ok v := by
  constructor
  · rintro (⟨before, path, after, t, rfl, hsaid, hafter, hread⟩ | ⟨hnone, rfl⟩)
    · rw [lastSaid_append, lastSaid_cons, lastSaid_eq_none_iff.mpr hafter, hsaid]
      exact hread
    · rw [lastSaid_eq_none_iff.mpr hnone]
      rfl
  · intro h
    cases hlast : lastSaid files a paths with
    | none =>
      right
      rw [hlast] at h
      exact ⟨lastSaid_eq_none_iff.mp hlast, (Except.ok.inj h).symm⟩
    | some t =>
      left
      rw [hlast] at h
      obtain ⟨after, path, before, hpaths, hsaid, hafter⟩ := List.findSome?_eq_some_iff.mp hlast
      refine ⟨before.reverse, path, after.reverse, t, ?_, hsaid, ?_, h⟩
      · rw [← List.reverse_reverse paths, hpaths]
        simp
      · exact fun p hp => hafter p (List.mem_reverse.mp hp)

/-- Settings that agree with one or the other, each as wanted. -/
theorem exists_mixture (c : Item → Bool) (s t : Settings) :
    ∃ u : Settings, ∀ a, u.get a = if c a then s.get a else t.get a := by
  let pick {α : Type} (a : Item) (x y : α) : α := if c a then x else y
  refine ⟨{
    global := {
      shutdownTimeoutSeconds := pick .shutdownTimeout s.global.shutdownTimeoutSeconds
        t.global.shutdownTimeoutSeconds
      storage := pick .storage s.global.storage t.global.storage }
    server := {
      port := pick .serverPort s.server.port t.server.port
      shutdownTimeoutSeconds := pick .serverTimeout s.server.shutdownTimeoutSeconds
        t.server.shutdownTimeoutSeconds }
    postgres := {
      host := pick .host s.postgres.host t.postgres.host
      port := pick .port s.postgres.port t.postgres.port
      user := pick .user s.postgres.user t.postgres.user
      password := pick .password s.postgres.password t.postgres.password
      database := pick .database s.postgres.database t.postgres.database
      defaultTimeoutSeconds := pick .postgresTimeout s.postgres.defaultTimeoutSeconds
        t.postgres.defaultTimeoutSeconds
      maxConnections := pick .maxConnections s.postgres.maxConnections t.postgres.maxConnections }
    stalenessThresholdSeconds := pick .staleness s.stalenessThresholdSeconds
      t.stalenessThresholdSeconds
    cleanupPeriodSeconds := pick .period s.cleanupPeriodSeconds t.cleanupPeriodSeconds }, ?_⟩
  intro a
  cases a <;> simp only [get, pick] <;> split <;> rfl

theorem load_appended {path : String} {s s' : Settings}
    (h : ∀ p ∈ paths ++ [path], OrdinaryFile files p) (hs : load files paths = .ok s)
    (hs' : load files (paths ++ [path]) = .ok s') :
    ∃ u, load files [path] = .ok u ∧
      ∀ a, s'.get a = if (said files a path).isSome then u.get a else s.get a := by
  have hpath : ∀ p ∈ [path], OrdinaryFile files p := fun p hp => h p (List.mem_append_right _ hp)
  have hpaths : ∀ p ∈ paths, OrdinaryFile files p := fun p hp => h p (List.mem_append_left _ hp)
  obtain ⟨-, hitems⟩ := (load_eq_ok_iff hpaths).mp hs
  obtain ⟨hperiod', hitems'⟩ := (load_eq_ok_iff h).mp hs'
  obtain ⟨u, hu⟩ := exists_mixture (fun a => (said files a path).isSome) s' {}
  refine ⟨u, (load_eq_ok_iff hpath).mpr ⟨?_, ?_⟩, ?_⟩
  · have hperiod := hu .period
    split at hperiod
    · rw [Value.number.inj hperiod]
      exact hperiod'
    · rw [Value.number.inj hperiod]
      decide
  · intro a
    have hitem := hitems' a
    rw [lastSaid_append, lastSaid_singleton] at hitem
    rw [lastSaid_singleton, hu]
    cases hsaid : said files a path with
    | none => rfl
    | some t =>
      rw [hsaid] at hitem
      exact hitem
  · intro a
    have hitem := hitems' a
    rw [lastSaid_append, lastSaid_singleton] at hitem
    rw [hu]
    cases hsaid : said files a path with
    | none =>
      rw [hsaid, Option.none_or, hitems a] at hitem
      exact (Except.ok.inj hitem).symm
    | some t => rfl

theorem load_swapped {before after : List String} {p q : String}
    (h : ∀ path ∈ before ++ p :: q :: after, OrdinaryFile files path)
    (hdisjoint : ∀ a, said files a p = none ∨ said files a q = none) :
    load files (before ++ p :: q :: after) = load files (before ++ q :: p :: after) := by
  have hperm : (before ++ q :: p :: after).Perm (before ++ p :: q :: after) :=
    (List.Perm.swap p q after).append_left before
  refine load_congr h (fun path hpath => h path (hperm.subset hpath)) ?_
  intro a
  simp only [lastSaid_append, lastSaid_cons, Option.or_assoc]
  rcases hdisjoint a with hnone | hnone
  · simp only [hnone, Option.none_or]
  · simp only [hnone, Option.none_or]

/-- Files are layers. A further file decides what it says something about, with the values that
it gives alone, and leaves the rest. So every setting comes from the last file that says
something about it or from the defaults, and nothing else counts. Neighbouring files that say
nothing about the same setting may change places. -/
theorem last_file_decides (files : String → Option Octets) :
    (∀ paths path s s', (∀ p ∈ paths ++ [path], OrdinaryFile files p) →
      load files paths = .ok s → load files (paths ++ [path]) = .ok s' →
      ∃ u, load files [path] = .ok u ∧
        ∀ a, s'.get a = if (said files a path).isSome then u.get a else s.get a) ∧
    (∀ paths, (∀ path ∈ paths, OrdinaryFile files path) → ∀ s,
      load files paths = .ok s ↔
        s.cleanupPeriodSeconds ≠ 0 ∧ ∀ a, FromLast files paths a (s.get a)) ∧
    (∀ before p q after, (∀ path ∈ before ++ p :: q :: after, OrdinaryFile files path) →
      (∀ a, said files a p = none ∨ said files a q = none) →
      load files (before ++ p :: q :: after) = load files (before ++ q :: p :: after)) := by
  refine ⟨?_, ?_, ?_⟩
  · intro paths path s s' h hs hs'
    exact load_appended h hs hs'
  · intro paths h s
    rw [load_eq_ok_iff h]
    simp only [fromLast_iff]
  · intro before p q after h hdisjoint
    exact load_swapped h hdisjoint

/-- A base, a file that overrides a port, and a file for another part. -/
def sampleFiles (path : String) : Option Octets :=
  match path with
  | "base.json" =>
    some (Octets.ofChars
      "\x7b\"http_server\":\x7b\"port\":9000\x7d,\"postgres\":\x7b\"host\":\"db\"\x7d\x7d".toList)
  | "local.json" => some (Octets.ofChars "\x7b\"http_server\":\x7b\"port\":9100\x7d\x7d".toList)
  | "storage.json" =>
    some (Octets.ofChars "\x7b\"global\":\x7b\"storage\":\"in_memory\"\x7d\x7d".toList)
  | _ => none

theorem local_file_overrides_base_file :
    load sampleFiles ["base.json"] =
      .ok { server := { port := 9000 }, postgres := { host := "db" } } ∧
    load sampleFiles ["base.json", "local.json"] =
      .ok { server := { port := 9100 }, postgres := { host := "db" } } ∧
    (∃ u, load sampleFiles ["local.json"] = .ok u ∧ u.server.port = 9100) ∧
    FromLast sampleFiles ["base.json", "local.json"] .host (.text "db") ∧
    load sampleFiles ["base.json", "storage.json"] =
      .ok
        { global := { storage := .inMemory }, server := { port := 9000 }
          postgres := { host := "db" } } ∧
    load sampleFiles ["base.json", "storage.json"] =
      load sampleFiles ["storage.json", "base.json"] := by
  obtain ⟨hfurther, hlast, hswap⟩ := last_file_decides sampleFiles
  have hs : load sampleFiles ["base.json"] =
      .ok { server := { port := 9000 }, postgres := { host := "db" } } := by decide +kernel
  have hs' : load sampleFiles ["base.json", "local.json"] =
      .ok { server := { port := 9100 }, postgres := { host := "db" } } := by decide +kernel
  have hbefore : ∀ path ∈ ["base.json", "local.json"], OrdinaryFile sampleFiles path := by
    decide +kernel
  refine ⟨hs, hs', ?_, ?_, ?_, ?_⟩
  · obtain ⟨u, hu, hitems⟩ := hfurther ["base.json"] "local.json" _ _ hbefore hs hs'
    have hsaid : (said sampleFiles .serverPort "local.json").isSome = true := by decide +kernel
    have hport := hitems .serverPort
    rw [if_pos hsaid] at hport
    exact ⟨u, hu, (Value.number.inj hport).symm⟩
  · exact ((hlast _ hbefore _).mp hs').2 .host
  · decide +kernel
  · apply hswap [] "base.json" "storage.json" []
    · decide +kernel
    · decide +kernel

end MailDispatch.Settings
