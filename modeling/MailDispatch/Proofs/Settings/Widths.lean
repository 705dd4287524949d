import Mathlib
import MailDispatch.Proofs.Json.Skipping
import MailDispatch.Proofs.Number.Rounding
import MailDispatch.Proofs.Settings.Sayings

/-! # Integers and the width of their setting

An integer of a document is kept as it is below `2 ^ 63` and as a binary fraction from there on.
It then becomes the value of a setting by what is left in the width of the setting. Nothing
asks whether it fits, so an integer that is too large is loaded as another one.
-/
namespace MailDispatch.Settings
open Text Json Number Numeral

/-! ## Integers in documents -/

/-- A tree that a document has where it writes a natural. -/
def Written (n : Nat) (t : Tree) : Prop :=
  ∃ fuel depth rest, EndsNumber rest ∧
    value (fuel + 1) depth (Octets.ofChars (ofNat n) ++ rest) = .ok (t, rest)

theorem value_ofNat {n fuel depth : Nat} {rest : Octets} (h : EndsNumber rest)
    (hfits : n ≤ greatest) :
    value (fuel + 1) depth (Octets.ofChars (ofNat n) ++ rest) =
      .ok (numberTree (.whole n), rest) := by
  have hread := number?_ofNat h hfits
  obtain ⟨b, bs, hcs, hdigit⟩ := exists_ofChars_ofNat n
  have hopens : ¬ (b = 91 ∨ b = 123) := by
    rintro (rfl | rfl) <;> cases hdigit
  rw [hcs, List.cons_append] at hread ⊢
  rw [value, skipBlanks_cons (isBlank_of_isDigit hdigit)]
  dsimp only
  rw [if_neg hopens, scalarTree, hread]
  rfl

theorem Written.eq_numberTree {n : Nat} {t : Tree} (h : Written n t) (hfits : n ≤ greatest) :
    t = numberTree (.whole n) := by
  obtain ⟨fuel, depth, rest, hends, hvalue⟩ := h
  rw [value_ofNat hends hfits] at hvalue
  exact (Prod.mk.inj (Except.ok.inj hvalue)).1.symm

theorem written_numberTree {n : Nat} (hfits : n ≤ greatest) : Written n (numberTree (.whole n)) :=
  ⟨0, 0, [], by simp [EndsNumber], value_ofNat (by simp [EndsNumber]) hfits⟩

/-! ## What is left of them -/

/-- What a setting of unlimited width would get: the integer itself below `2 ^ 63`, and from
there on the nearest multiple of `2048`, but nothing beyond 64 bits. -/
def kept (n : Nat) : Nat :=
  if n < 2 ^ 63 then n else min (Binary64.nearest n 2048 * 2048) greatest

theorem natural_numberTree {n : Nat} (hfits : n ≤ greatest) :
    natural (numberTree (.whole n)) = .ok (kept n) := by
  by_cases hsmall : n < 2 ^ 63
  · have hcontains : Bounds.int64.Contains (n : Int) := by
      constructor
      · change (-9223372036854775808 : Int) ≤ n
        omega
      · change (n : Int) ≤ 9223372036854775807
        omega
    rw [kept, if_pos hsmall]
    simp only [numberTree, if_pos hcontains, natural, if_pos (Int.natCast_nonneg n),
      Int.toNat_natCast]
  · have hcontains : ¬ Bounds.int64.Contains (n : Int) := by
      rintro ⟨-, hhigh⟩
      change (n : Int) ≤ 9223372036854775807 at hhigh
      omega
    obtain ⟨x, hx, hpositive, hmagnitude⟩ := Binary64.exists_ofNat (n := n) (k := 11)
      (by omega) (by unfold greatest at hfits; omega) (by decide)
    rw [kept, if_neg hsmall]
    simp only [numberTree, if_neg hcontains, Int.toNat_natCast, hx, natural, hpositive,
      hmagnitude]
    rfl

theorem kept_greatest : kept greatest = greatest := by
  decide

theorem kept_le {n : Nat} (hfits : n ≤ greatest) : kept n ≤ greatest := by
  unfold kept
  split
  · exact hfits
  · exact Nat.min_le_right _ _

theorem kept_eq_iff {n : Nat} (hfits : n ≤ greatest) :
    kept n = n ↔ n < 2 ^ 63 ∨ 2048 ∣ n ∨ n = greatest := by
  by_cases hsmall : n < 2 ^ 63
  · rw [kept, if_pos hsmall]
    exact ⟨fun _ => .inl hsmall, fun _ => rfl⟩
  · constructor
    · intro h
      right
      rw [kept, if_neg hsmall] at h
      rcases Nat.le_total (Binary64.nearest n 2048 * 2048) greatest with hle | hle
      · rw [Nat.min_eq_left hle] at h
        exact .inl ((Binary64.nearest_mul_eq_iff (by decide)).mp h)
      · rw [Nat.min_eq_right hle] at h
        exact .inr h.symm
    · rintro (h | h | rfl)
      · exact absurd h hsmall
      · rw [kept, if_neg hsmall, (Binary64.nearest_mul_eq_iff (by decide)).mpr h]
        exact Nat.min_eq_left hfits
      · exact kept_greatest

theorem kept_mod_eq_iff {n bits : Nat} (hfits : n ≤ greatest) (hbits : bits ≤ 64) :
    kept n % 2 ^ bits = n ↔ n < 2 ^ bits ∧ (n < 2 ^ 63 ∨ 2048 ∣ n ∨ n = greatest) := by
  rw [← kept_eq_iff hfits]
  constructor
  · intro h
    have hlt : n < 2 ^ bits := by
      rw [← h]
      exact Nat.mod_lt _ (Nat.two_pow_pos bits)
    refine ⟨hlt, ?_⟩
    by_cases hsmall : n < 2 ^ 63
    · rw [kept, if_pos hsmall]
    · -- Only the full width has room for such an integer, and it cuts nothing off.
      have hwide : 63 < bits := by
        apply (Nat.pow_lt_pow_iff_right (by decide : 1 < 2)).mp
        omega
      have hfull : bits = 64 := by omega
      subst hfull
      have hroom : kept n < 2 ^ 64 := by
        have hle := kept_le hfits
        unfold greatest at hle
        omega
      rw [Nat.mod_eq_of_lt hroom] at h
      exact h
  · rintro ⟨hlt, h⟩
    rw [h, Nat.mod_eq_of_lt hlt]

/-! ## What is loaded -/

theorem Item.bits_le {a : Item} {bits : Nat} (h : a.form = .word bits) : bits ≤ 64 := by
  cases a <;> cases h <;> decide

theorem word_written {n bits : Nat} {t : Tree} (h : Written n t) (hfits : n ≤ greatest) :
    word bits t = .ok (kept n % 2 ^ bits) := by
  rw [word, h.eq_numberTree hfits, natural_numberTree hfits]
  rfl

theorem lt_of_word {bits v : Nat} {t : Tree} (h : word bits t = .ok v) : v < 2 ^ bits := by
  obtain ⟨w, -, rfl⟩ := ok_of_map h
  exact Nat.mod_lt _ (Nat.two_pow_pos bits)

/-- What is loaded for a setting of a width that has a value in the merged tree. -/
theorem loaded_of_holds {files : String → Option Octets} {paths : List String} {s : Settings}
    {a : Item} {t root : Tree} {shape : Shape} {bits : Nat} (hload : load files paths = .ok s)
    (hroot : layered files defaults paths = .ok root) (hholds : Holds a t shape root)
    (hform : a.form = .word bits) :
    ∃ v, s.get a = .number v ∧ word bits t = .ok v := by
  rw [load_eq_bind hroot] at hload
  obtain ⟨s', hs', hcheck⟩ := bind_eq_ok_iff.mp hload
  obtain ⟨-, rfl⟩ := check_eq_ok_iff.mp hcheck
  obtain ⟨top, htop, hitems⟩ := ofTree_eq_ok_iff.mp hs'
  obtain ⟨top', htop', hread⟩ := hholds.readFrom
  rw [htop] at htop'
  cases htop'
  have hvalue : a.form.read t = .ok (s'.get a) := by
    rw [← hread]
    exact hitems a
  rw [hform] at hvalue
  obtain ⟨v, hv, hget⟩ := ok_of_map hvalue
  exact ⟨v, hget.symm, hv⟩

/-- An integer that files give a setting last stands in the merged tree. No integer of 64 bits
is refused where a setting is read, and whatever integer stands in the merged tree is loaded as
what is left of it in the width of the setting. So it is loaded as itself exactly if it fits
into the width and, from `2 ^ 63` on, is a multiple of `2048` or the greatest one of 64 bits. -/
theorem integers_are_cut_to_their_width (files : String → Option Octets) :
    (∀ paths a t, GivenLast files paths a t →
      ∃ root shape, layered files defaults paths = .ok root ∧ Holds a t shape root) ∧
    (∀ a bits n t, Item.form a = .word bits → Written n t → n < 2 ^ 64 →
      a.form.read t = .ok (.number (kept n % 2 ^ bits))) ∧
    (∀ paths s a bits n t root shape, load files paths = .ok s →
      layered files defaults paths = .ok root → Holds a t shape root →
      a.form = .word bits → Written n t →
      ∃ v, s.get a = .number v ∧ (n < 2 ^ 64 → v = kept n % 2 ^ bits) ∧
        (v = n ↔ n < 2 ^ bits ∧ (n < 2 ^ 63 ∨ 2048 ∣ n ∨ n = 2 ^ 64 - 1))) := by
  refine ⟨?_, ?_, ?_⟩
  · intro paths a t h
    exact h.holds
  · intro a bits n t hform hwritten hlt
    have hfits : n ≤ greatest := by unfold greatest; omega
    rw [hform, Form.read, word_written hwritten hfits]
    rfl
  · intro paths s a bits n t root shape hload hroot hholds hform hwritten
    obtain ⟨v, hv, hword⟩ := loaded_of_holds hload hroot hholds hform
    have hbits := Item.bits_le hform
    refine ⟨v, hv, ?_⟩
    by_cases hfits : n ≤ greatest
    · obtain rfl : kept n % 2 ^ bits = v :=
        Except.ok.inj ((word_written hwritten hfits).symm.trans hword)
      exact ⟨fun _ => rfl, kept_mod_eq_iff hfits hbits⟩
    · -- Beyond 64 bits no setting has room.
      have hlt := lt_of_word hword
      have hroom : 2 ^ bits ≤ 2 ^ 64 := Nat.pow_le_pow_right (by decide) hbits
      unfold greatest at hfits
      constructor
      · intro hsmall
        omega
      · constructor
        · intro heq
          omega
        · rintro ⟨hsmall, -⟩
          omega

/-- A port, a number of connections and a time, each one too large. -/
def largeFiles (path : String) : Option Octets :=
  match path with
  | "port.json" =>
    some (Octets.ofChars "\x7b\"http_server\":\x7b\"port\":65536\x7d\x7d".toList)
  | "pool.json" =>
    some (Octets.ofChars "\x7b\"postgres.max_connections\":4294967296\x7d".toList)
  | "time.json" =>
    some (Octets.ofChars
      "\x7b\"global\":\x7b\"shutdown_timeout_seconds\":9223372036854775809\x7d\x7d".toList)
  | _ => none

theorem readFile_port : readFile largeFiles "port.json" =
    .ok (.table [("http_server", .table [("port", .whole 65536)])]) := by
  cbv

theorem readFile_pool : readFile largeFiles "pool.json" =
    .ok (.table [("postgres.max_connections", .whole 4294967296)]) := by
  cbv

theorem gives_port :
    Gives .serverPort (.whole 65536) .named
      ("http_server", .table ([] ++ ("port", .whole 65536) :: [])) := by
  apply Gives.field
  · decide +kernel
  · rfl
  · simp

theorem ofKey_pool :
    Path.ofKey "postgres.max_connections" = ⟨"postgres", [.child "max_connections"]⟩ := by
  decide +kernel

theorem port_and_pool_are_cut :
    load largeFiles ["port.json", "pool.json"] =
      .ok { server := { port := 0 }, postgres := { maxConnections := 0 } } ∧
    Item.serverPort.form.read (.whole 65536) = .ok (.number (kept 65536 % 2 ^ 16)) ∧
    (∃ v, v = kept 65536 % 2 ^ 16 ∧ v ≠ 65536 ∧
      get { server := { port := 0 }, postgres := { maxConnections := 0 } } .serverPort =
        .number v) ∧
    (∃ v, v = kept 4294967296 % 2 ^ 32 ∧ v ≠ 4294967296 ∧
      get { server := { port := 0 }, postgres := { maxConnections := 0 } } .maxConnections =
        .number v) := by
  obtain ⟨hgiven, hread, hloaded⟩ := integers_are_cut_to_their_width largeFiles
  have hload : load largeFiles ["port.json", "pool.json"] =
      .ok { server := { port := 0 }, postgres := { maxConnections := 0 } } := by decide +kernel
  have hsayings : sayings largeFiles ["port.json", "pool.json"] =
      .ok [("http_server", .table [("port", .whole 65536)]),
        ("postgres.max_connections", .whole 4294967296)] := by
    simp only [sayings, readFile_port, readFile_pool]
    rfl
  have hwritten : Written 65536 (.whole 65536) := written_numberTree (n := 65536) (by decide)
  refine ⟨hload, hread .serverPort 16 65536 _ rfl hwritten (by decide), ?_, ?_⟩
  · obtain ⟨root, shape, hroot, hholds⟩ := hgiven ["port.json", "pool.json"] .serverPort
      (.whole 65536) (by
        refine ⟨[], _, _, .named, hsayings, gives_port, ?_⟩
        intro later hlater
        rw [List.mem_singleton.mp hlater]
        apply Spares.elsewhere
        rw [ofKey_pool]
        decide)
    obtain ⟨v, hv, hkept, hsame⟩ := hloaded _ _ .serverPort 16 65536 _ _ _ hload hroot hholds rfl
      hwritten
    refine ⟨v, hkept (by decide), ?_, hv⟩
    intro heq
    exact absurd (hsame.mp heq).1 (by decide)
  · obtain ⟨root, shape, hroot, hholds⟩ := hgiven ["port.json", "pool.json"] .maxConnections
      (.whole 4294967296) (by
        refine ⟨[_], _, [], .named, hsayings, .child ofKey_pool rfl, ?_⟩
        intro later hlater
        cases hlater)
    obtain ⟨v, hv, hkept, hsame⟩ := hloaded _ _ .maxConnections 32 4294967296 _ _ _ hload hroot
      hholds rfl (written_numberTree (n := 4294967296) (by decide))
    refine ⟨v, hkept (by decide), ?_, hv⟩
    intro heq
    exact absurd (hsame.mp heq).1 (by decide)

/-- A port beyond its width is given last, and the server is to listen on another one. From
`2 ^ 63` on even a time that fits into its width becomes another one. -/
theorem large_integers_become_others :
    GivenLast largeFiles ["port.json"] .serverPort (.whole 65536) ∧ Written 65536 (.whole 65536) ∧
    load largeFiles ["port.json"] = .ok { server := { port := 0 } } ∧
    load largeFiles ["time.json"] =
      .ok { global := { shutdownTimeoutSeconds := 9223372036854775808 } } := by
  refine ⟨?_, ?_, ?_, ?_⟩
  · have hsayings : sayings largeFiles ["port.json"] =
        .ok [("http_server", .table [("port", .whole 65536)])] := by
      simp only [sayings, readFile_port]
      rfl
    refine ⟨[], _, [], .named, hsayings, gives_port, ?_⟩
    intro later hlater
    cases hlater
  · exact written_numberTree (n := 65536) (by decide)
  · decide +kernel
  · decide +kernel

end MailDispatch.Settings
