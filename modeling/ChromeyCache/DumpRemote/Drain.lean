import ChromeyCache.DumpRemote.Worker

/-! # The dump worker drains its queue

The worker is never stuck: from every reachable state its own moves (`rx.recv()`, `tick.tick()`,
the end of a push, time passing), with no caller enqueueing, push every job of the pipeline and
leave the worker awaiting `recv` on an empty queue. Nor does a push hold it for long: the timeout
ends every push attempt `timeout_ms` after it started.

* `reachable_deadline_le`: the next tick is never more than one period `tick_ms` away;
* `reachable_push_expiry`: a pending push is the last attempt, started at most `timeout_ms` ago;
* `run_settle`: from any point of its loop the worker gets back to `recv` by its own moves, the
  queue untouched;
* `worker_drains_pipeline`: from every reachable state a run of worker moves pushes the jobs of
  the pipeline, in order, and ends in `recv` on an empty queue;
* `worker_pushes_promptly`: in that run each push starts at most one period after the one before.
-/

namespace ChromeyCache.DumpRemote.Drain

open ChromeyCache.DumpRemote.Worker

variable {cfg : Config} {s s' : Sys}

/-! ## The deadline -/

/-- A tick once its deadline is due sets the next one at most a period ahead of the clock, and
nothing else moves it. -/
theorem step_deadline_le {a : Action} (h : step cfg s a = some s')
    (hd : s.deadline ≤ s.clock + cfg.tickMs) : s'.deadline ≤ s'.clock + cfg.tickMs := by
  rcases step_cases h with ⟨-, -, -, hd', hc, -⟩ | ⟨-, -, -, -, -, -, rfl⟩ |
      ⟨-, -, -, -, -, -, rfl⟩ | ⟨-, -, -, hle, rfl⟩ | ⟨_, _, -, -, rfl⟩
  · omega
  · exact hd
  · exact hd
  · exact nextDeadline_le hle
  · exact hd

/-- In every reachable state the next tick is at most one period away. -/
theorem reachable_deadline_le (h : Reachable cfg s) : s.deadline ≤ s.clock + cfg.tickMs := by
  induction h with
  | init => exact Nat.zero_le _
  | next a _ hs ih => exact step_deadline_le hs ih

/-! ## The push timeout -/

/-- A pending push is the last attempt, its expiry `timeout_ms` after its start, and the clock not
past it. -/
def PushExpiry (cfg : Config) (s : Sys) : Prop :=
  ∀ job e, s.worker = .push job e →
    ∃ t, s.pushes.getLast? = some (t, job) ∧ e = t + cfg.timeoutMs ∧ s.clock ≤ e

/-- Waiting stops at the expiry of a pending push, and the tick records the push it starts. -/
theorem step_pushExpiry {a : Action} (h : step cfg s a = some s') (hs : PushExpiry cfg s) :
    PushExpiry cfg s' := by
  rcases step_cases h with ⟨hw', -, hp, -, -, -, hc⟩ | ⟨-, -, -, hw', -, -, rfl⟩ |
      ⟨-, -, -, -, -, -, rfl⟩ | ⟨_, -, -, -, rfl⟩ | ⟨_, _, -, -, rfl⟩ <;> intro job e hw
  · obtain ⟨t, hl, he, hce⟩ := hs job e (hw' ▸ hw)
    exact ⟨t, hp ▸ hl, he, hc job e (hw' ▸ hw) hce⟩
  · exact Loop.noConfusion (hw'.symm.trans hw)
  · cases hw
  · cases hw
    exact ⟨_, List.getLast?_concat _, rfl, Nat.le_add_right _ _⟩
  · cases hw

/-- In every reachable state a pending push is the last attempt, and it started at most
`timeout_ms` ago: `tokio::time::timeout` ends it by then. -/
theorem reachable_push_expiry (h : Reachable cfg s) : PushExpiry cfg s := by
  induction h with
  | init => intro _ _ hw; cases hw
  | next a _ hs ih => exact step_pushExpiry hs ih

/-! ## Progress -/

/-- A move of the worker or of the clock: no caller enqueues. -/
def isWorkerMove : Action → Bool
  | .trySend _ | .send _ => false
  | _ => true

/-- A worker move hands nothing to the channel. -/
theorem accepted_eq_nil {a : Action} (h : isWorkerMove a) : accepted cfg s a = [] := by
  cases a <;> simp_all [isWorkerMove, accepted]

theorem runAccepted_eq_nil : ∀ (s : Sys) (as : List Action), (∀ a ∈ as, isWorkerMove a) →
    runAccepted cfg s as = []
  | _, [], _ => rfl
  | s, a :: as, h => by
    simp only [runAccepted]
    split
    · rw [accepted_eq_nil (h a (List.mem_cons_self _ _)),
        runAccepted_eq_nil _ as fun a' h' => h a' (List.mem_cons_of_mem _ h'), List.nil_append]
    · rfl

/-- The moves that bring the worker back to `recv`: for a job awaiting its tick, wait for the
deadline, tick and end the push; for a job being pushed, end the push. -/
def settle (s : Sys) : List Action :=
  match s.worker with
  | .recv => []
  | .tick _ => [.wait (s.deadline - s.clock), .tick, .finish]
  | .push _ _ => [.finish]

theorem settle_isWorkerMove (s : Sys) : ∀ a ∈ settle s, isWorkerMove a := by
  unfold settle
  split <;> simp [isWorkerMove]

/-- From any point of its loop the worker gets back to `recv`, the queue untouched: a job awaiting
its tick is pushed once the deadline is reached, and the clock moves no further. -/
theorem run_settle (cfg : Config) (s : Sys) :
    ∃ s', run cfg s (settle s) = some s' ∧ s'.worker = .recv ∧ s'.queue = s.queue ∧
      s'.pushes = s.pushes ++ s.worker.waiting.map ((s.clock + (s.deadline - s.clock), ·)) ∧
      s'.clock ≤ s.clock + s.worker.waiting.length * (s.deadline - s.clock) := by
  have hd : s.deadline ≤ s.clock + (s.deadline - s.clock) := by omega
  rcases hw : s.worker with _ | job | ⟨job, e⟩ <;> simp [settle, hw, run, step, hd, Loop.waiting]

/-- Times each at most `p` after the one before, the first at most `p` after `t`. -/
def Prompt (p : Nat) : Nat → List Nat → Prop
  | _, [] => True
  | t, u :: us => u ≤ t + p ∧ Prompt p u us

theorem Prompt.mono {p t t' : Nat} (ht : t ≤ t') :
    ∀ {us : List Nat}, Prompt p t us → Prompt p t' us
  | [], _ => trivial
  | _ :: _, ⟨hu, hus⟩ => ⟨by omega, hus⟩

/-- With the worker in `recv`, its moves push the queue out job by job, each push at most one
period after the one before. -/
theorem drain_recv : ∀ (q : List DumpJob) (s : Sys), Reachable cfg s → s.worker = .recv →
    s.queue = q → ∃ as s' ps, (∀ a ∈ as, isWorkerMove a) ∧ run cfg s as = some s' ∧
      s'.worker = .recv ∧ s'.queue = [] ∧ s'.pushes = s.pushes ++ ps ∧ ps.map Prod.snd = q ∧
      Prompt cfg.tickMs s.clock (ps.map Prod.fst)
  | [], s, _, hw, hq => ⟨[], s, [], by simp, rfl, hw, hq, by simp, rfl, trivial⟩
  | job :: rest, s, h, hw, hq => by
    have h₁ := recv_accepts h hw hq
    set s₁ : Sys := { s with queue := rest, worker := .tick job, inflight := [job.cacheKey] }
    have hr₁ : Reachable cfg s₁ := .next .recv h h₁
    obtain ⟨s₂, h₂, hw₂, hq₂, hp₂, hc₂⟩ := run_settle cfg s₁
    obtain ⟨as, s', ps, has, hrun, hw', hq', hp', hjobs, hprompt⟩ :=
      drain_recv rest s₂ (reachable_of_run cfg _ _ hr₁ h₂) hw₂ hq₂
    have hd₁ := reachable_deadline_le hr₁
    refine ⟨.recv :: (settle s₁ ++ as), s', (s.clock + (s.deadline - s.clock), job) :: ps, ?_,
      ?_, hw', hq', ?_, by simp [hjobs], ?_⟩
    · simp only [List.forall_mem_cons, List.forall_mem_append]
      exact ⟨rfl, settle_isWorkerMove _, has⟩
    · rw [run, h₁, Option.some_bind, run_append, h₂, Option.some_bind, hrun]
    · simp [hp', hp₂, s₁, Loop.waiting]
    · simp only [s₁, Loop.waiting, List.length_singleton, Nat.one_mul] at hc₂ hd₁
      exact ⟨by omega, hprompt.mono hc₂⟩

/-- From every reachable state the worker alone, with time passing, pushes every job of the
pipeline in order and ends awaiting `recv` on an empty queue: no job is stuck. -/
theorem worker_drains_pipeline (h : Reachable cfg s) :
    ∃ as s', (∀ a ∈ as, isWorkerMove a) ∧ run cfg s as = some s' ∧ s'.worker = .recv ∧
      s'.queue = [] ∧ s'.pushes.map Prod.snd = s.jobs := by
  obtain ⟨s₁, h₁, hw₁, -⟩ := run_settle cfg s
  obtain ⟨as, s', -, has, hrun, hw, hq, -⟩ :=
    drain_recv s₁.queue s₁ (reachable_of_run cfg s _ h h₁) hw₁ rfl
  have hrun' : run cfg s (settle s ++ as) = some s' := by
    rw [run_append, h₁, Option.some_bind, hrun]
  have hall : ∀ a ∈ settle s ++ as, isWorkerMove a :=
    List.forall_mem_append.mpr ⟨settle_isWorkerMove s, has⟩
  refine ⟨_, s', hall, hrun', hw, hq, ?_⟩
  have hjobs := run_jobs cfg s _ h hrun'
  rw [runAccepted_eq_nil s _ hall, List.append_nil] at hjobs
  simpa [Sys.jobs, hw, hq, Loop.waiting] using hjobs

theorem worker_drains_pipeline_sameKey :
    Reachable defaultConfig ((run defaultConfig Sys.init (sameKeyRun.take 3)).getD Sys.init) ∧
      ∃ as s', (∀ a ∈ as, isWorkerMove a) ∧
        run defaultConfig ((run defaultConfig Sys.init (sameKeyRun.take 3)).getD Sys.init) as =
          some s' ∧ s'.worker = .recv ∧ s'.queue = [] ∧
        s'.pushes.map Prod.snd =
          ((run defaultConfig Sys.init (sameKeyRun.take 3)).getD Sys.init).jobs :=
  have hr := reachable_of_run defaultConfig Sys.init (sameKeyRun.take 3) .init rfl
  ⟨hr, worker_drains_pipeline hr⟩

/-- From every reachable state the worker alone pushes every job it holds or has queued, in order,
each push starting at most one period `tick_ms` after the one before and the first at most one
period from now: the rate gate never holds a job back for more than a period. -/
theorem worker_pushes_promptly (h : Reachable cfg s) :
    ∃ as s' ps, (∀ a ∈ as, isWorkerMove a) ∧ run cfg s as = some s' ∧ s'.worker = .recv ∧
      s'.queue = [] ∧ s'.pushes = s.pushes ++ ps ∧ ps.map Prod.snd = s.worker.waiting ++ s.queue ∧
      Prompt cfg.tickMs s.clock (ps.map Prod.fst) := by
  obtain ⟨s₁, h₁, hw₁, hq₁, hp₁, hc₁⟩ := run_settle cfg s
  obtain ⟨as, s', ps, has, hrun, hw, hq, hp, hjobs, hprompt⟩ :=
    drain_recv s₁.queue s₁ (reachable_of_run cfg s _ h h₁) hw₁ rfl
  have hd := reachable_deadline_le h
  refine ⟨settle s ++ as, s', s.worker.waiting.map ((s.clock + (s.deadline - s.clock), ·)) ++ ps,
    List.forall_mem_append.mpr ⟨settle_isWorkerMove s, has⟩,
    by rw [run_append, h₁, Option.some_bind, hrun], hw, hq, by simp [hp, hp₁],
    by simp [hjobs, hq₁], ?_⟩
  rcases hwk : s.worker with _ | job | ⟨job, e⟩ <;> rw [hwk] at hc₁ <;>
    simp only [Loop.waiting, List.length_nil, List.length_singleton, Nat.zero_mul, Nat.one_mul,
      Nat.add_zero, List.map_nil, List.map_cons, List.nil_append, List.cons_append] at hc₁ ⊢
  · exact hprompt.mono hc₁
  · exact ⟨by omega, hprompt.mono hc₁⟩
  · exact hprompt.mono hc₁

theorem worker_pushes_promptly_sameKey :
    Reachable defaultConfig ((run defaultConfig Sys.init (sameKeyRun.take 3)).getD Sys.init) ∧
      ∃ as s' ps, (∀ a ∈ as, isWorkerMove a) ∧
        run defaultConfig ((run defaultConfig Sys.init (sameKeyRun.take 3)).getD Sys.init) as =
          some s' ∧ s'.worker = .recv ∧ s'.queue = [] ∧
        s'.pushes = ((run defaultConfig Sys.init (sameKeyRun.take 3)).getD Sys.init).pushes ++ ps ∧
        ps.map Prod.snd =
          ((run defaultConfig Sys.init (sameKeyRun.take 3)).getD Sys.init).worker.waiting ++
            ((run defaultConfig Sys.init (sameKeyRun.take 3)).getD Sys.init).queue ∧
        Prompt defaultConfig.tickMs
          ((run defaultConfig Sys.init (sameKeyRun.take 3)).getD Sys.init).clock
          (ps.map Prod.fst) :=
  have hr := reachable_of_run defaultConfig Sys.init (sameKeyRun.take 3) .init rfl
  ⟨hr, worker_pushes_promptly hr⟩

end ChromeyCache.DumpRemote.Drain
