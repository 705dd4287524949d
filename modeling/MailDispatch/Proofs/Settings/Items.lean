import Mathlib.Data.Fintype.Basic
import MailDispatch.Settings.Layers
import MailDispatch.Proofs.Json.Contents
import MailDispatch.Proofs.Text.Digits

/-! # Settings one by one

The settings are read part by part, and a part is read field by field. A single setting is a
field of a part, and its value has a form. The reading of the settings succeeds exactly if the
reading of every single one does, and it looks at nothing else.
-/
namespace MailDispatch.Settings
open Json

inductive Part where
  | global
  | server
  | postgres
  | remover
  | cleanup
  deriving DecidableEq, Repr

instance : Fintype Part :=
  ⟨{.global, .server, .postgres, .remover, .cleanup}, fun p => by cases p <;> decide⟩

def Part.name : Part → String
  | .global => "global"
  | .server => "http_server"
  | .postgres => "postgres"
  | .remover => "stale_mailing_entry_remover"
  | .cleanup => "mailing_entry_cleanup_job"

def Part.place : Part → Nat
  | .global => 0
  | .server => 1
  | .postgres => 2
  | .remover => 3
  | .cleanup => 4

inductive Form where
  | word (bits : Nat)
  | text
  | storage
  deriving DecidableEq, Repr

inductive Value where
  | number (n : Nat)
  | text (s : String)
  | storage (s : Storage)
  deriving DecidableEq, Repr

def Form.read : Form → Tree → Except Problem Value
  | .word bits, t => (Settings.word bits t).map .number
  | .text, t => (textOf t).map .text
  | .storage, t => (storageOf t).map .storage

/-- A setting. -/
inductive Item where
  | shutdownTimeout
  | storage
  | serverPort
  | serverTimeout
  | host
  | port
  | user
  | password
  | database
  | postgresTimeout
  | maxConnections
  | staleness
  | period
  deriving DecidableEq, Repr

instance : Fintype Item :=
  ⟨{.shutdownTimeout, .storage, .serverPort, .serverTimeout, .host, .port, .user, .password,
    .database, .postgresTimeout, .maxConnections, .staleness, .period},
    fun a => by cases a <;> decide⟩

namespace Item

def part : Item → Part
  | shutdownTimeout | storage => .global
  | serverPort | serverTimeout => .server
  | host | port | user | password | database | postgresTimeout | maxConnections => .postgres
  | staleness => .remover
  | period => .cleanup

def name : Item → String
  | shutdownTimeout | serverTimeout => "shutdown_timeout_seconds"
  | storage => "storage"
  | serverPort | port => "port"
  | host => "host"
  | user => "user"
  | password => "password"
  | database => "database"
  | postgresTimeout => "default_timeout_seconds"
  | maxConnections => "max_connections"
  | staleness => "staleness_threshold_seconds"
  | period => "period_seconds"

def place : Item → Nat
  | shutdownTimeout | serverPort | host | staleness | period => 0
  | storage | serverTimeout | port => 1
  | user => 2
  | password => 3
  | database => 4
  | postgresTimeout => 5
  | maxConnections => 6

def form : Item → Form
  | shutdownTimeout | serverTimeout | postgresTimeout | staleness | period => .word 64
  | serverPort | port => .word 16
  | maxConnections => .word 32
  | host | user | password | database => .text
  | storage => .storage

end Item

def get (s : Settings) : Item → Value
  | .shutdownTimeout => .number s.global.shutdownTimeoutSeconds
  | .storage => .storage s.global.storage
  | .serverPort => .number s.server.port
  | .serverTimeout => .number s.server.shutdownTimeoutSeconds
  | .host => .text s.postgres.host
  | .port => .number s.postgres.port
  | .user => .text s.postgres.user
  | .password => .text s.postgres.password
  | .database => .text s.postgres.database
  | .postgresTimeout => .number s.postgres.defaultTimeoutSeconds
  | .maxConnections => .number s.postgres.maxConnections
  | .staleness => .number s.stalenessThresholdSeconds
  | .period => .number s.cleanupPeriodSeconds

/-- The value of a setting in its part. -/
def Item.readIn (a : Item) (s : Section) : Except Problem Value :=
  s.field a.name a.place (get {} a) a.form.read

/-- The value of a setting among all parts. -/
def Item.readFrom (a : Item) (top : Section) : Except Problem Value :=
  top.field a.part.name a.part.place (get {} a) fun t => do a.readIn (← Section.of t)

/-! ## Reading all of them -/

theorem field_eq_ok_iff {α : Type} {s : Section} {name : String} {place : Nat} {d x : α}
    {read : Tree → Except Problem α} :
    s.field name place d read = .ok x ↔
      (s.get? name place = none ∧ d = x) ∨ ∃ t, s.get? name place = some t ∧ read t = .ok x := by
  unfold Section.field
  cases s.get? name place with
  | none => simp
  | some t => simp

theorem field_map_eq_ok_iff {α β : Type} {s : Section} {name : String} {place : Nat} {d x : α}
    {read : Tree → Except Problem α} {f : α → β} (hf : Function.Injective f) :
    s.field name place (f d) (fun t => (read t).map f) = .ok (f x) ↔
      s.field name place d read = .ok x := by
  unfold Section.field
  cases s.get? name place with
  | none => simp [hf.eq_iff]
  | some t =>
    cases h : read t with
    | error e => simp [h, Except.map]
    | ok y => simp [h, Except.map, hf.eq_iff]

theorem number_injective : Function.Injective Value.number := fun _ _ => Value.number.inj

theorem text_injective : Function.Injective Value.text := fun _ _ => Value.text.inj

theorem storage_injective : Function.Injective Value.storage := fun _ _ => Value.storage.inj

theorem Part.exists_item (p : Part) : ∃ a : Item, a.part = p := by
  cases p with
  | global => exact ⟨.storage, rfl⟩
  | server => exact ⟨.serverPort, rfl⟩
  | postgres => exact ⟨.port, rfl⟩
  | remover => exact ⟨.staleness, rfl⟩
  | cleanup => exact ⟨.period, rfl⟩

theorem Item.readFrom_eq_ok_iff {a : Item} {top : Section} {v : Value} :
    a.readFrom top = .ok v ↔
      (top.get? a.part.name a.part.place = none ∧ get {} a = v) ∨
        ∃ t, top.get? a.part.name a.part.place = some t ∧
          ∃ s, Section.of t = .ok s ∧ a.readIn s = .ok v := by
  simp only [readFrom, field_eq_ok_iff, bind_eq_ok_iff]

/-- A reader of a part that gives exactly what its fields give does so among all parts, where
the part may be missing. -/
theorem field_of_part {α : Type} {p : Part} {read : Tree → Except Problem α} {d : α}
    {whole : α → Settings}
    (hread : ∀ t x, read t = .ok x ↔ ∃ s, Section.of t = .ok s ∧
      ∀ a : Item, a.part = p → a.readIn s = .ok (get (whole x) a))
    (hdefault : whole d = {})
    (hwhole : ∀ x, (∀ a : Item, a.part = p → get (whole d) a = get (whole x) a) → d = x)
    {top : Section} {x : α} :
    top.field p.name p.place d read = .ok x ↔
      ∀ a : Item, a.part = p → a.readFrom top = .ok (get (whole x) a) := by
  rw [field_eq_ok_iff]
  constructor
  · rintro (⟨hnone, hx⟩ | ⟨t, ht, hx⟩) a rfl
    · exact Item.readFrom_eq_ok_iff.mpr (.inl ⟨hnone, by rw [← hx, hdefault]⟩)
    · obtain ⟨s, hs, hfields⟩ := (hread t x).mp hx
      exact Item.readFrom_eq_ok_iff.mpr (.inr ⟨t, ht, s, hs, hfields a rfl⟩)
  · intro h
    cases hget : top.get? p.name p.place with
    | none =>
      left
      refine ⟨rfl, hwhole x ?_⟩
      rintro a rfl
      rw [hdefault]
      rcases Item.readFrom_eq_ok_iff.mp (h a rfl) with ⟨-, hx⟩ | ⟨t, ht, -⟩
      · exact hx
      · rw [hget] at ht
        cases ht
    | some t =>
      right
      obtain ⟨b, hb⟩ := p.exists_item
      have hpart : ∀ a : Item, a.part = p →
          ∃ s, Section.of t = .ok s ∧ a.readIn s = .ok (get (whole x) a) := by
        rintro a rfl
        rcases Item.readFrom_eq_ok_iff.mp (h a rfl) with ⟨hnone, -⟩ | ⟨u, hu, hx⟩
        · rw [hget] at hnone
          cases hnone
        · rw [hget] at hu
          cases hu
          exact hx
      obtain ⟨s, hs, -⟩ := hpart b hb
      refine ⟨t, rfl, (hread t x).mpr ⟨s, hs, ?_⟩⟩
      intro a ha
      obtain ⟨s', hs', hx⟩ := hpart a ha
      rw [hs] at hs'
      cases hs'
      exact hx

theorem readGlobal_eq_ok_iff (t : Tree) (g : GlobalSettings) :
    readGlobal t = .ok g ↔ ∃ s, Section.of t = .ok s ∧
      ∀ a : Item, a.part = .global → a.readIn s = .ok (get { global := g } a) := by
  simp only [readGlobal, bind_eq_ok_iff, pure_eq_ok_iff]
  constructor
  · rintro ⟨s, hs, x, hx, y, hy, rfl⟩
    refine ⟨s, hs, ?_⟩
    intro a ha
    cases a <;> cases ha
    · exact (field_map_eq_ok_iff number_injective).mpr hx
    · exact (field_map_eq_ok_iff storage_injective).mpr hy
  · rintro ⟨s, hs, h⟩
    exact ⟨s, hs, _, (field_map_eq_ok_iff number_injective).mp (h .shutdownTimeout rfl),
      _, (field_map_eq_ok_iff storage_injective).mp (h .storage rfl), rfl⟩

theorem readServer_eq_ok_iff (t : Tree) (v : ServerSettings) :
    readServer t = .ok v ↔ ∃ s, Section.of t = .ok s ∧
      ∀ a : Item, a.part = .server → a.readIn s = .ok (get { server := v } a) := by
  simp only [readServer, bind_eq_ok_iff, pure_eq_ok_iff]
  constructor
  · rintro ⟨s, hs, x, hx, y, hy, rfl⟩
    refine ⟨s, hs, ?_⟩
    intro a ha
    cases a <;> cases ha
    · exact (field_map_eq_ok_iff number_injective).mpr hx
    · exact (field_map_eq_ok_iff number_injective).mpr hy
  · rintro ⟨s, hs, h⟩
    exact ⟨s, hs, _, (field_map_eq_ok_iff number_injective).mp (h .serverPort rfl),
      _, (field_map_eq_ok_iff number_injective).mp (h .serverTimeout rfl), rfl⟩

theorem readPostgres_eq_ok_iff (t : Tree) (v : PostgresSettings) :
    readPostgres t = .ok v ↔ ∃ s, Section.of t = .ok s ∧
      ∀ a : Item, a.part = .postgres → a.readIn s = .ok (get { postgres := v } a) := by
  simp only [readPostgres, bind_eq_ok_iff, pure_eq_ok_iff]
  constructor
  · rintro ⟨s, hs, host, hhost, port, hport, user, huser, password, hpassword, database,
      hdatabase, timeout, htimeout, most, hmost, rfl⟩
    refine ⟨s, hs, ?_⟩
    intro a ha
    cases a <;> cases ha
    · exact (field_map_eq_ok_iff text_injective).mpr hhost
    · exact (field_map_eq_ok_iff number_injective).mpr hport
    · exact (field_map_eq_ok_iff text_injective).mpr huser
    · exact (field_map_eq_ok_iff text_injective).mpr hpassword
    · exact (field_map_eq_ok_iff text_injective).mpr hdatabase
    · exact (field_map_eq_ok_iff number_injective).mpr htimeout
    · exact (field_map_eq_ok_iff number_injective).mpr hmost
  · rintro ⟨s, hs, h⟩
    exact ⟨s, hs, _, (field_map_eq_ok_iff text_injective).mp (h .host rfl),
      _, (field_map_eq_ok_iff number_injective).mp (h .port rfl),
      _, (field_map_eq_ok_iff text_injective).mp (h .user rfl),
      _, (field_map_eq_ok_iff text_injective).mp (h .password rfl),
      _, (field_map_eq_ok_iff text_injective).mp (h .database rfl),
      _, (field_map_eq_ok_iff number_injective).mp (h .postgresTimeout rfl),
      _, (field_map_eq_ok_iff number_injective).mp (h .maxConnections rfl), rfl⟩

/-- A part with one field, which is a number of seconds. -/
theorem field_of_seconds {b : Item} {d : Nat} {w : Nat → Settings}
    (honly : ∀ a : Item, a.part = b.part → a = b) (hdefault : w d = {})
    (hvalue : ∀ n, get (w n) b = .number n)
    (hfield : ∀ (s : Section) (n : Nat),
      b.readIn s = .ok (get (w n) b) ↔ s.field b.name 0 d (word 64) = .ok n)
    {top : Section} {n : Nat} :
    top.field b.part.name b.part.place d (readSeconds b.name d) = .ok n ↔
      ∀ a : Item, a.part = b.part → a.readFrom top = .ok (get (w n) a) := by
  refine field_of_part ?_ hdefault fun n h => ?_
  · intro t n
    simp only [readSeconds, bind_eq_ok_iff, ← hfield]
    constructor
    · rintro ⟨s, hs, hn⟩
      refine ⟨s, hs, ?_⟩
      intro a ha
      rw [honly a ha]
      exact hn
    · rintro ⟨s, hs, h⟩
      exact ⟨s, hs, h b rfl⟩
  · have hnumber := h b rfl
    rw [hvalue, hvalue] at hnumber
    exact Value.number.inj hnumber

theorem field_global {top : Section} {x : GlobalSettings} :
    top.field "global" 0 {} readGlobal = .ok x ↔
      ∀ a : Item, a.part = .global → a.readFrom top = .ok (get { global := x } a) := by
  refine field_of_part readGlobal_eq_ok_iff rfl fun x h => ?_
  have htimeout := Value.number.inj (h .shutdownTimeout rfl)
  have hstorage := Value.storage.inj (h .storage rfl)
  cases x
  simp_all

theorem field_server {top : Section} {x : ServerSettings} :
    top.field "http_server" 1 {} readServer = .ok x ↔
      ∀ a : Item, a.part = .server → a.readFrom top = .ok (get { server := x } a) := by
  refine field_of_part readServer_eq_ok_iff rfl fun x h => ?_
  have hport := Value.number.inj (h .serverPort rfl)
  have htimeout := Value.number.inj (h .serverTimeout rfl)
  cases x
  simp_all

theorem field_postgres {top : Section} {x : PostgresSettings} :
    top.field "postgres" 2 {} readPostgres = .ok x ↔
      ∀ a : Item, a.part = .postgres → a.readFrom top = .ok (get { postgres := x } a) := by
  refine field_of_part readPostgres_eq_ok_iff rfl fun x h => ?_
  have hhost := Value.text.inj (h .host rfl)
  have hport := Value.number.inj (h .port rfl)
  have huser := Value.text.inj (h .user rfl)
  have hpassword := Value.text.inj (h .password rfl)
  have hdatabase := Value.text.inj (h .database rfl)
  have htimeout := Value.number.inj (h .postgresTimeout rfl)
  have hmost := Value.number.inj (h .maxConnections rfl)
  cases x
  simp_all

theorem field_remover {top : Section} {x : Nat} :
    top.field "stale_mailing_entry_remover" 3 7200
        (readSeconds "staleness_threshold_seconds" 7200) = .ok x ↔
      ∀ a : Item, a.part = .remover →
        a.readFrom top = .ok (get { stalenessThresholdSeconds := x } a) :=
  field_of_seconds (b := .staleness) (w := fun n => { stalenessThresholdSeconds := n })
    (by decide) rfl (fun _ => rfl) fun _ _ => field_map_eq_ok_iff number_injective

theorem field_cleanup {top : Section} {x : Nat} :
    top.field "mailing_entry_cleanup_job" 4 300 (readSeconds "period_seconds" 300) = .ok x ↔
      ∀ a : Item, a.part = .cleanup →
        a.readFrom top = .ok (get { cleanupPeriodSeconds := x } a) :=
  field_of_seconds (b := .period) (w := fun n => { cleanupPeriodSeconds := n })
    (by decide) rfl (fun _ => rfl) fun _ _ => field_map_eq_ok_iff number_injective

/-- Settings are read from a tree exactly if every single setting is. -/
theorem ofTree_eq_ok_iff {t : Tree} {s : Settings} :
    ofTree t = .ok s ↔
      ∃ top, Section.of t = .ok top ∧ ∀ a : Item, a.readFrom top = .ok (s.get a) := by
  simp only [ofTree, bind_eq_ok_iff, pure_eq_ok_iff, field_global, field_server, field_postgres,
    field_remover, field_cleanup]
  constructor
  · rintro ⟨top, htop, g, hg, v, hv, p, hp, n, hn, m, hm, rfl⟩
    refine ⟨top, htop, ?_⟩
    intro a
    cases a <;>
      first
        | exact hg _ rfl
        | exact hv _ rfl
        | exact hp _ rfl
        | exact hn _ rfl
        | exact hm _ rfl
  · rintro ⟨top, htop, h⟩
    refine ⟨top, htop, s.global, ?_, s.server, ?_, s.postgres, ?_, s.stalenessThresholdSeconds, ?_,
      s.cleanupPeriodSeconds, ?_, rfl⟩
    all_goals
      intro a ha
      cases a <;> cases ha <;> exact h _

/-! ## Loading -/

theorem load_eq_bind {files : String → Option Text.Octets} {paths : List String} {t : Tree}
    (h : layered files defaults paths = .ok t) :
    load files paths = ofTree t >>= check := by
  rw [load, h]
  rfl

theorem check_eq_ok_iff {s s' : Settings} :
    check s = .ok s' ↔ s.cleanupPeriodSeconds ≠ 0 ∧ s = s' := by
  unfold check
  by_cases h : s.cleanupPeriodSeconds = 0
  · simp [h]
  · simp [h]

end MailDispatch.Settings
