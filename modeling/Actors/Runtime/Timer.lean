/-
`Timer` (`src/include/actors/act/Timer.hpp`): `wake_up_in` and `wake_up_at` start a detached
thread that sleeps, then calls `subscriber->send(new msg::Timeout(data), nullptr)`, an ordinary
`Actor::send` from a thread outside any handler. `wake_up_at(subscriber, interval_ms)` computes its
wait from the milliseconds since midnight with C++'s truncating `%`, then narrows it to `int`. For
every time of day and every positive `int` interval, it wakes at the first multiple of
`interval_ms` since midnight that lies strictly after now: never early against that grid, and
skipping none of its points. The narrowing never changes the wait.
-/
import Mathlib.Tactic.Ring
import Mathlib.Order.Basic

namespace Actors

namespace Timer

/-- `int(x)` of a `long long`: reduction into the 32-bit two's-complement range. -/
def toInt32 (x : Int) : Int := x.bmod (2 ^ 32)

/-- `Timer::sleep(seconds, msecs)`: the milliseconds it hands to `sleep_for`. -/
def sleepMs (seconds msecs : Int) : Int := seconds * 1000 + msecs

/-- `time_to_wait` of `Timer::wake_up_at`, at `curr_ms` milliseconds since midnight. -/
def wakeUpAtWait (currMs intervalMs : Int) : Int :=
  let roundedDown := currMs - currMs.tmod intervalMs
  let nextTimeout := roundedDown + intervalMs
  nextTimeout - currMs

/-- What the thread `wake_up_at` starts sleeps: `sleep(0, int(time_to_wait))`. -/
def wakeUpAtDelay (currMs intervalMs : Int) : Int :=
  sleepMs 0 (toInt32 (wakeUpAtWait currMs intervalMs))

theorem toInt32_of_lt {x : Int} (h0 : 0 ≤ x) (h1 : x < 2 ^ 31) : toInt32 x = x := by
  have hx : x % ((2 ^ 32 : Nat) : Int) = x := Int.emod_eq_of_lt h0 (by push_cast; omega)
  simp only [toInt32, Int.bmod, hx]
  rw [if_pos (by omega)]

/-- On a non-negative time of day and a positive interval, the truncating `%` is the Euclidean one:
the wait is the interval less the time past the last multiple. -/
theorem wakeUpAtWait_eq {currMs intervalMs : Int} (hc : 0 ≤ currMs) (hi : 0 < intervalMs) :
    wakeUpAtWait currMs intervalMs = intervalMs - currMs % intervalMs := by
  simp only [wakeUpAtWait, Int.tmod_eq_emod hc hi.le]
  omega

end Timer

open Timer in
/-- `Timer::wake_up_at(subscriber, interval_ms)` at any time of day, for any positive `int`
interval: the thread sleeps between 1 ms and `interval_ms`, until an instant that is a multiple
of `interval_ms` since midnight, and no shorter positive sleep reaches one. So it wakes at the
next point of the grid strictly after now: a full interval when now is on the grid. -/
theorem wake_up_at_next_multiple {currMs intervalMs : Int} (hc : 0 ≤ currMs) (hi : 0 < intervalMs)
    (hint : intervalMs < 2 ^ 31) :
    0 < wakeUpAtDelay currMs intervalMs ∧ wakeUpAtDelay currMs intervalMs ≤ intervalMs ∧
      intervalMs ∣ currMs + wakeUpAtDelay currMs intervalMs ∧
      ∀ w, 0 < w → intervalMs ∣ currMs + w → wakeUpAtDelay currMs intervalMs ≤ w := by
  have hr0 := Int.emod_nonneg currMs hi.ne'
  have hr1 := Int.emod_lt_of_pos currMs hi
  -- the wait fits an `int`, so `int(time_to_wait)` keeps it
  have hd : wakeUpAtDelay currMs intervalMs = intervalMs - currMs % intervalMs := by
    rw [wakeUpAtDelay, wakeUpAtWait_eq hc hi, toInt32_of_lt (by omega) (by omega), sleepMs]
    omega
  -- the last multiple of the interval at or before now
  have hdown : intervalMs ∣ currMs - currMs % intervalMs := Int.dvd_sub_of_emod_eq rfl
  refine ⟨by omega, by omega, ?_, fun w hw hdw => ?_⟩
  · have he : currMs + (intervalMs - currMs % intervalMs) =
        (currMs - currMs % intervalMs) + intervalMs := by ring
    rw [hd, he]
    exact Int.dvd_add hdown (Int.dvd_refl _)
  · have he : currMs + w - (currMs - currMs % intervalMs) = w + currMs % intervalMs := by ring
    have hle : intervalMs ≤ w + currMs % intervalMs :=
      Int.le_of_dvd (by omega) (he ▸ Int.dvd_sub hdw hdown)
    omega

/-- At 12:30:00.123 with a one-minute interval, the thread wakes at 12:31:00.000. -/
theorem wake_up_at_next_multiple_minute :
    (0 : Int) ≤ 45000123 ∧ (0 : Int) < 60000 ∧ (60000 : Int) < 2 ^ 31 ∧
    0 < Timer.wakeUpAtDelay 45000123 60000 ∧ Timer.wakeUpAtDelay 45000123 60000 ≤ 60000 ∧
      (60000 : Int) ∣ 45000123 + Timer.wakeUpAtDelay 45000123 60000 ∧
      ∀ w, 0 < w → (60000 : Int) ∣ 45000123 + w → Timer.wakeUpAtDelay 45000123 60000 ≤ w :=
  ⟨by decide, by decide, by decide,
    wake_up_at_next_multiple (by decide) (by decide) (by decide)⟩

example : Timer.wakeUpAtDelay 45000123 60000 = 59877 ∧ Timer.wakeUpAtDelay 45000000 60000 = 60000 := by
  decide

end Actors
