import R2Bench.Machines

/-!
# Tickers

A ticker fires once a period and puts the instant into a channel of capacity one;
what does not fit is dropped, and a ticker that comes late skips the periods it has
missed. Instants are integers of any unit.
-/
namespace Tickers
open Machines

/-- The instant that is due next, and the one in the channel. -/
structure Ticker where
  due : ℤ
  pending : Option ℤ
  deriving DecidableEq

/-- A clock beside a ticker. -/
structure Timed where
  clock : ℤ
  ticker : Ticker
  deriving DecidableEq

inductive Act
  | wait (d : ℕ)
  | fire
  | receive
  deriving DecidableEq

namespace Ticker

def new (period now : ℤ) : Ticker := ⟨now + period, none⟩

def fire (period now : ℤ) (t : Ticker) : Option Ticker :=
  if t.due ≤ now then
    some ⟨t.due + period * (1 + (now - t.due) / period), some (t.pending.getD now)⟩
  else none

def receive (t : Ticker) : Option Ticker := t.pending.map fun _ => { t with pending := none }

/-- A ticker that has fired is due within a period. -/
theorem fire_spec {period now : ℤ} {t t' : Ticker} (hpos : 0 < period)
    (h : t.fire period now = some t') : t.due ≤ now ∧ t.due + period ≤ t'.due ∧
      now < t'.due ∧ t'.due ≤ now + period ∧ t'.pending = some (t.pending.getD now) := by
  unfold fire at h
  split_ifs at h with hdue
  cases h
  have hdiv := Int.mul_ediv_add_emod (now - t.due) period
  have hrem := Int.emod_lt_of_pos (now - t.due) hpos
  have hrem' := Int.emod_nonneg (now - t.due) (ne_of_gt hpos)
  have hquot : 0 ≤ period * ((now - t.due) / period) :=
    mul_nonneg hpos.le (Int.ediv_nonneg (sub_nonneg.mpr hdue) hpos.le)
  have hexpand : period * (1 + (now - t.due) / period) =
      period + period * ((now - t.due) / period) := by ring
  simp only [hexpand]
  exact ⟨hdue, by omega, by omega, by omega, trivial⟩

theorem receive_spec {t t' : Ticker} (h : t.receive = some t') :
    t.pending.isSome = true ∧ t' = { t with pending := none } := by
  obtain ⟨now, hnow, hsame⟩ := Option.map_eq_some_iff.mp h
  exact ⟨by simp [hnow], hsame.symm⟩

end Ticker

def step (period : ℤ) (s : Timed) : Act → Option Timed
  | .wait d => some { s with clock := s.clock + d }
  | .fire => (s.ticker.fire period s.clock).map fun ticker => { s with ticker }
  | .receive => s.ticker.receive.map fun ticker => { s with ticker }

section
variable {period : ℤ} {C : Timed → Act → Prop} {s s' : Timed} {acts : List Act}

/-- What has been received was in the channel or has been fired since. -/
theorem received_le_fired (hpos : 0 < period) (run : Run (step period) C s acts s') :
    acts.count .receive + s'.ticker.pending.toList.length ≤
      acts.count .fire + s.ticker.pending.toList.length := by
  induction run with
  | start => simp
  | @next acts u u' a run _ moved ih =>
    cases a with
    | wait d =>
      cases moved
      simpa using ih
    | fire =>
      obtain ⟨t, ht, rfl⟩ := Option.map_eq_some_iff.mp moved
      obtain ⟨-, -, -, -, hpending⟩ := Ticker.fire_spec hpos ht
      simp [hpending]
      omega
    | receive =>
      obtain ⟨t, ht, rfl⟩ := Option.map_eq_some_iff.mp moved
      obtain ⟨hsome, rfl⟩ := Ticker.receive_spec ht
      obtain ⟨now, hnow⟩ := Option.isSome_iff_exists.mp hsome
      simp [hnow] at ih ⊢
      omega

/-- Each firing moves the next one on by a period at least, and past the clock. -/
theorem due_of_run (hpos : 0 < period) (init : s.ticker.due ≤ s.clock + period)
    (run : Run (step period) C s acts s') : s.clock ≤ s'.clock ∧
      s'.ticker.due ≤ s'.clock + period ∧
      s.ticker.due + period * acts.count .fire ≤ s'.ticker.due ∧
      (acts.count .fire ≠ 0 →
        s.clock + period * ((acts.count .fire : ℤ) - 1) < s'.ticker.due) := by
  induction run with
  | start => simpa using init
  | @next acts u u' a run _ moved ih =>
    obtain ⟨hclock, hdue, hmoves, hlate⟩ := ih
    cases a with
    | wait d =>
      cases moved
      have hcount : (acts ++ [Act.wait d]).count .fire = acts.count .fire := by simp
      rw [hcount]
      have hlater : u.clock ≤ u.clock + d := by omega
      exact ⟨hclock.trans hlater, hdue.trans (add_le_add_left hlater _), hmoves, hlate⟩
    | fire =>
      obtain ⟨t, ht, rfl⟩ := Option.map_eq_some_iff.mp moved
      obtain ⟨hle, hstep, hpast, hnext, -⟩ := Ticker.fire_spec hpos ht
      have hcount : (acts ++ [Act.fire]).count .fire = acts.count .fire + 1 := by simp
      have hmul : period * ((acts.count .fire : ℤ) + 1) = period * acts.count .fire + period := by
        ring
      rw [hcount]
      push_cast
      refine ⟨hclock, hnext, by omega, fun _ => ?_⟩
      by_cases hfirst : acts.count .fire = 0
      · simp only [hfirst]
        simp
        omega
      · have hbefore := hlate hfirst
        have hshift : period * ((acts.count .fire : ℤ) - 1) =
            period * acts.count .fire - period := by ring
        simp only [add_sub_cancel_right]
        omega
    | receive =>
      obtain ⟨t, ht, rfl⟩ := Option.map_eq_some_iff.mp moved
      obtain ⟨-, rfl⟩ := Ticker.receive_spec ht
      have hcount : (acts ++ [Act.receive]).count .fire = acts.count .fire := by simp
      rw [hcount]
      exact ⟨hclock, hdue, hmoves, hlate⟩

/-- In any stretch of a run there are at most three instants more than whole periods. -/
theorem window_received (hpos : 0 < period) (init : s.ticker.due ≤ s.clock + period)
    (run : Run (step period) C s acts s') :
    (acts.count .receive : ℤ) ≤ (s'.clock - s.clock) / period + 3 := by
  obtain ⟨hclock, hdue, -, hlate⟩ := due_of_run hpos init run
  have hreceived := received_le_fired hpos run
  have hone : s.ticker.pending.toList.length ≤ 1 := by cases s.ticker.pending <;> simp
  have hquot : 0 ≤ (s'.clock - s.clock) / period :=
    Int.ediv_nonneg (sub_nonneg.mpr hclock) hpos.le
  have hfired : (acts.count .fire : ℤ) - 2 ≤ (s'.clock - s.clock) / period := by
    by_cases hnone : acts.count .fire = 0
    · omega
    · have hlt := hlate hnone
      rw [Int.le_ediv_iff_mul_le hpos]
      have hshift : ((acts.count .fire : ℤ) - 2) * period =
          period * ((acts.count .fire : ℤ) - 1) - period := by ring
      omega
  omega

/-- A new ticker gives no more instants than whole periods have passed. -/
theorem received_of_new (hpos : 0 < period) {now : ℤ}
    (run : Run (step period) C ⟨now, .new period now⟩ acts s') :
    (acts.count .receive : ℤ) ≤ (s'.clock - now) / period := by
  obtain ⟨-, hdue, hmoves, -⟩ := due_of_run hpos (by simp [Ticker.new]) run
  have hreceived := received_le_fired hpos run
  simp only [Ticker.new, Option.toList_none, List.length_nil] at hreceived hmoves
  have hfired : (acts.count .fire : ℤ) ≤ (s'.clock - now) / period := by
    rw [Int.le_ediv_iff_mul_le hpos, mul_comm]
    omega
  omega

end

end Tickers
