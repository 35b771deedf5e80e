import Courier.Config.Source
import Courier.Proofs.Preparation
import Courier.Proofs.Thousandfold
/-!
Rates that are written down.  A text is read if it names some permits and a finite number of seconds
above zero; the window that is kept is rounded to whole milliseconds.  A client asks for a window that
has a length, so what decides is whether the seconds come to half a millisecond.
-/
namespace Courier

theorem Span.ofMillis_eq_zero_iff {n : Nat} : Span.ofMillis n = 0 ↔ n = 0 :=
  Nat.mul_eq_zero.trans (or_iff_left (by decide))

/-- The rate is checked last: a draft is checked as if it had none, and then its rate. -/
theorem Draft.check_eq_bind (draft : Draft) (hshared : draft.sharedRate = none) :
    draft.check = { draft with rate := none }.check >>= fun settings =>
      draft.checkRate >>= fun rate => .ok { settings with rate } := by
  have hbase : { draft with rate := none }.checkBase = draft.checkBase := rfl
  have htype : { draft with rate := none }.checkContentType = draft.checkContentType := rfl
  have hnone : { draft with rate := none }.checkRate = .ok none := by simp [checkRate, hshared]
  simp only [check, hbase, htype, hnone]
  cases draft.checkBase with
  | error e => rfl
  | ok base =>
      by_cases htimeout : draft.timeout = some 0
      · simp only [if_pos htimeout]
        rfl
      · simp only [if_neg htimeout]
        cases draft.checkContentType with
        | error e => rfl
        | ok contentType =>
            cases overlay builtInHeaders draft.headers with
            | error e => rfl
            | ok headers => rfl

namespace Config

/-- A text is read as a limit if its parts are read and neither of them is out of range. -/
theorem Limit.parse_eq_ok_iff {text : String} {limit : Limit} :
    Limit.parse text = .ok limit ↔
      ∃ permits seconds x, Text.splitOnce '/' text = some (permits, seconds) ∧
        Decimal.readNat Decimal.max32 (Text.trim permits) = .ok limit.permits ∧
        Decimal.readFloat (Text.trim seconds) = .ok x ∧
        0 < limit.permits ∧ x.isFinite = true ∧ ¬ x ≤ 0.0 ∧
        limit.windowMillis = wholeNearest (x * 1000.0) := by
  unfold Limit.parse
  cases hsplit : Text.splitOnce '/' text with
  | none => simp
  | some parts =>
      obtain ⟨permits, seconds⟩ := parts
      cases hpermits : Decimal.readNat Decimal.max32 (Text.trim permits) with
      | error e => simp [hpermits]
      | ok n =>
          cases hseconds : Decimal.readFloat (Text.trim seconds) with
          | error e => simp [hpermits, hseconds]
          | ok x =>
              constructor
              · intro h
                simp only [hpermits, hseconds] at h
                split at h
                · cases h
                · rename_i hrange
                  obtain rfl := Except.ok.inj h
                  simp only [Bool.or_eq_true, decide_eq_true_eq, Bool.not_eq_true', not_or,
                    Bool.not_eq_false] at hrange
                  exact ⟨_, _, x, rfl, hpermits, hseconds, Nat.pos_of_ne_zero hrange.1.1,
                    hrange.1.2, hrange.2, rfl⟩
              · rintro ⟨_, _, y, hparts, hn, hy, hpos, hfinite, habove, hwindow⟩
                obtain ⟨rfl, rfl⟩ := Prod.mk.inj (Option.some.inj hparts)
                rw [hpermits] at hn
                rw [hseconds] at hy
                obtain rfl := Except.ok.inj hn
                obtain rfl := Except.ok.inj hy
                simp [hpermits, hseconds, Nat.ne_of_gt hpos, hfinite, habove, ← hwindow]

theorem rate_of_draft {config : Config} {lookup : String → Option String} {draft : Draft}
    (h : config.draft lookup = .ok draft) :
    draft.sharedRate = none ∧ draft.rate = config.limit.map Limit.rate := by
  obtain ⟨calls, _, h⟩ := bind_eq_ok_iff.mp h
  simp only [pure, Except.pure, Except.ok.injEq] at h
  rw [← h]
  exact ⟨rfl, rfl⟩

/-- The rate of a limit is in order if it has permits and its window has a length. -/
theorem Limit.check_rate {limit : Limit} (hpermits : 0 < limit.permits) :
    limit.rate.check =
      if 0 < limit.windowMillis then .ok () else .error .emptyWindow := by
  have hsome : limit.rate.permits ≠ 0 := Nat.ne_of_gt hpermits
  rw [Rate.check, if_neg hsome, rate]
  by_cases hwindow : 0 < limit.windowMillis
  · rw [if_neg (mt Span.ofMillis_eq_zero_iff.mp (Nat.ne_of_gt hwindow)), if_pos hwindow]
  · rw [if_pos (Span.ofMillis_eq_zero_iff.mpr (Nat.eq_zero_of_not_pos hwindow)), if_neg hwindow]

/-- What is read as a limit has permits, and a window unless the seconds are less than half a
millisecond.  With a window that has a length its rate is in order, and a client that is configured
with it is refused only if it would be refused without it; with an empty one every client is. -/
theorem Limit.parse_usable_iff {text : String} {limit : Limit} (h : Limit.parse text = .ok limit) :
    ∃ permits seconds x, Text.splitOnce '/' text = some (permits, seconds) ∧
      Decimal.readNat Decimal.max32 (Text.trim permits) = .ok limit.permits ∧
      Decimal.readFloat (Text.trim seconds) = .ok x ∧
      limit.windowMillis = wholeNearest (x * 1000.0) ∧
      0 < limit.permits ∧ (0 < limit.windowMillis ↔ 0.0005 ≤ x) ∧
      limit.rate.check = (if 0.0005 ≤ x then .ok () else .error .emptyWindow) ∧
      ∀ (lookup : String → Option String) (config : Config) (draft : Draft),
        config.limit = some limit → config.draft lookup = .ok draft →
          draft.check = { draft with rate := none }.check >>= fun settings =>
            if 0.0005 ≤ x then .ok { settings with rate := some limit.rate }
            else .error (.rate .emptyWindow) := by
  obtain ⟨permits, seconds, x, hsplit, hread, hseconds, hpermits, hfinite, hpos, hmillis⟩ :=
    parse_eq_ok_iff.mp h
  have hwindow : 0 < limit.windowMillis ↔ 0.0005 ≤ x := by
    rw [hmillis, wholeNearest_millis_pos_iff hfinite hpos]
  have hcheck : limit.rate.check = if 0.0005 ≤ x then .ok () else .error .emptyWindow := by
    simp only [check_rate hpermits, hwindow]
  refine ⟨permits, seconds, x, hsplit, hread, hseconds, hmillis, hpermits, hwindow, hcheck, ?_⟩
  intro lookup config draft hlimit hdraft
  obtain ⟨hshared, hrate⟩ := rate_of_draft hdraft
  have hrates : draft.checkRate =
      if 0.0005 ≤ x then .ok (some limit.rate) else .error (.rate .emptyWindow) := by
    simp only [Draft.checkRate, hshared, hrate, hlimit, Option.map_some, hcheck]
    by_cases henough : 0.0005 ≤ x
    · simp only [if_pos henough]
    · simp only [if_neg henough]
  rw [draft.check_eq_bind hshared, hrates]
  by_cases henough : 0.0005 ≤ x
  · simp only [if_pos henough]
    rfl
  · simp only [if_neg henough]
    rfl

end Config

namespace RateSpecWitness

open Config

/-- A configuration with nothing but an address and a limit. -/
def config (limit : Limit) : Config :=
  { baseUrl := some "https://mock.local", limit := some limit }

def plain : Draft :=
  { baseUrl := some "https://mock.local" }

def draft (limit : Limit) : Draft :=
  { plain with rate := some limit.rate }

theorem exists_check_plain : ∃ settings, plain.check = .ok settings := by
  have hok : plain.check.isOk = true := by decide +kernel
  cases hplain : plain.check with
  | error e =>
      rw [hplain] at hok
      cases hok
  | ok settings => exact ⟨settings, rfl⟩

theorem draft_config (limit : Limit) : (config limit).draft (fun _ => none) = .ok (draft limit) :=
  rfl

theorem parse_of_toOption {text : String} {limit : Limit}
    (h : (Limit.parse text).toOption = some limit) : Limit.parse text = .ok limit := by
  cases hparse : Limit.parse text with
  | error e =>
      rw [hparse] at h
      cases h
  | ok limit' =>
      rw [hparse] at h
      rw [Option.some.inj h]

theorem parse_half_milli : Limit.parse "1/0.0005" = .ok ⟨1, 1⟩ :=
  parse_of_toOption (by decide +kernel)

theorem parse_tenth_milli : Limit.parse "1/0.0001" = .ok ⟨1, 0⟩ :=
  parse_of_toOption (by decide +kernel)

/-- Half a millisecond is kept as a whole one, and a client is made with it. -/
theorem half_milli_admitted :
    Limit.parse "1/0.0005" = .ok ⟨1, 1⟩ ∧
      (⟨1, 1⟩ : Limit).rate.check = .ok () ∧
      (config ⟨1, 1⟩).draft (fun _ => none) = .ok (draft ⟨1, 1⟩) ∧
      ∃ settings, (draft ⟨1, 1⟩).check = .ok settings ∧
        settings.rate = some ⟨1, Span.ofMillis 1⟩ := by
  obtain ⟨_, _, x, _, _, _, _, _, hwindow, hcheck, hclient⟩ :=
    Limit.parse_usable_iff parse_half_milli
  have henough := hwindow.mp (by decide)
  obtain ⟨settings, hplain⟩ := exists_check_plain
  have hmade := hclient _ _ _ rfl (draft_config ⟨1, 1⟩)
  have hwithout : { draft ⟨1, 1⟩ with rate := none } = plain := rfl
  rw [hwithout, hplain] at hmade
  rw [if_pos henough] at hcheck
  simp only [if_pos henough] at hmade
  exact ⟨parse_half_milli, hcheck, draft_config _, _, hmade, rfl⟩

/-- A tenth of a millisecond is read as a limit too, and its window is empty: no client is made. -/
theorem tenth_milli_refused :
    Limit.parse "1/0.0001" = .ok ⟨1, 0⟩ ∧
      (⟨1, 0⟩ : Limit).rate.check = .error .emptyWindow ∧
      (config ⟨1, 0⟩).draft (fun _ => none) = .ok (draft ⟨1, 0⟩) ∧
      (draft ⟨1, 0⟩).check = .error (.rate .emptyWindow) := by
  obtain ⟨settings, hplain⟩ := exists_check_plain
  have hmade := (draft ⟨1, 0⟩).check_eq_bind rfl
  have hwithout : { draft ⟨1, 0⟩ with rate := none } = plain := rfl
  rw [hwithout, hplain] at hmade
  exact ⟨parse_tenth_milli, rfl, draft_config _, hmade⟩

end RateSpecWitness
end Courier
