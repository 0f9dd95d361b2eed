import ChromeyCache.Manager.Hybrid

/-! # The remote dump worker of `init_inner`

The whole pipeline as a state machine: the bounded channel, the point the worker loop is at, its
in-flight set, the interval `tick` and the clock, with the push attempts (`dump_job` calls) made
so far. A step is one move of one party: a caller's `try_send` (`enqueue_best_effort`,
`try_enqueue`) or `send` (`enqueue`, enabled while there is room), the worker's `recv` with its
in-flight check, the return of `tick.tick()`, which moves the deadline as `Interval::poll_tick`
does under `MissedTickBehavior::Delay` (`nextDeadline`), the end of a push (done, or timed out
`timeout_ms` after it started), or time passing, never beyond the expiry of a pending push. A run
is any interleaving of steps.

The worker awaits each push before it receives again, so its in-flight set holds at most the key
of the job it works on:

* `inflight_eq_held`: in every reachable state the in-flight set is the key of the held job, and
  empty while the worker waits in `recv`;
* `recv_accepts`: so the `continue` of the in-flight check is never taken: every received job goes
  on to a push attempt;
* `run_jobs`: along any run the pushes, the held job and the queue are the jobs the run enqueued,
  in order, none lost or copied;
* `same_key_pushed_twice`: two jobs with one key, the second enqueued while the first waits for
  its tick, make two push attempts.
-/

namespace ChromeyCache.DumpRemote.Worker

open ChromeyCache.Manager.Hybrid

/-- `DumpJob`. -/
structure DumpJob where
  cacheKey : String
  cacheSite : String
  url : String
  method : String
  status : UInt16
  requestHeaders : List (String × String)
  responseHeaders : List (String × String)
  body : List UInt8
  httpVersion : HttpVersion
  dumpRemote : Option String
  deriving DecidableEq, Repr

/-- The configuration `init_inner` is called with. -/
structure Config where
  queueCap : Nat
  qps : Nat
  timeoutMs : Nat
  deriving DecidableEq, Repr

/-- `default_queue_cap`, from the parsed `HYBRID_CACHE_REMOTE_QUEUE_CAP`. -/
def defaultQueueCap (env : Option Nat) : Nat := env.getD 10000

/-- `default_qps`, from the parsed `HYBRID_CACHE_REMOTE_QPS`. -/
def defaultQps (env : Option Nat) : Nat := env.getD 50

/-- `default_timeout_ms`, from the parsed `HYBRID_CACHE_REMOTE_TIMEOUT_MS`. -/
def defaultTimeoutMs (env : Option Nat) : Nat := env.getD 2500

/-- `init_remote_dump_worker`: the `OnceCell` keeps the configuration of the first call. -/
def initRemoteDumpWorker (cell : Option Config) (cfg : Config) : Config := cell.getD cfg

theorem initRemoteDumpWorker_idem (cell : Option Config) (cfg cfg' : Config) :
    initRemoteDumpWorker (some (initRemoteDumpWorker cell cfg)) cfg' = initRemoteDumpWorker cell cfg :=
  rfl

/-- `mpsc::channel(queue_cap.max(1))`. -/
def Config.cap (cfg : Config) : Nat := max cfg.queueCap 1

/-- `(1000u64 / qps.max(1) as u64).max(1)`, the period of the interval in milliseconds. -/
def Config.tickMs (cfg : Config) : Nat := max (1000 / max cfg.qps 1) 1

/-- The deadline `Interval::poll_tick` sets under `MissedTickBehavior::Delay` when the tick due at
`deadline` returns at `now`: a tick at most `5` ms late keeps the schedule, one period after the
deadline; a later one starts it again one period after `now`. -/
def nextDeadline (period deadline now : Nat) : Nat :=
  if deadline + 5 < now then now + period else deadline + period

section NextDeadline

variable {period deadline now : Nat}

/-- A tick that returns once its deadline is due leaves the next one at most a period away. -/
theorem nextDeadline_le (h : deadline ≤ now) : nextDeadline period deadline now ≤ now + period := by
  unfold nextDeadline
  split <;> omega

end NextDeadline

/-- Where the worker loop is. -/
inductive Loop
  /-- Awaiting `rx.recv()`. -/
  | recv
  /-- Holding an accepted job, awaiting `tick.tick()`. -/
  | tick (job : DumpJob)
  /-- Awaiting the push of the job under `tokio::time::timeout`, which ends it by `expiry`,
  `timeout_ms` after it started. -/
  | push (job : DumpJob) (expiry : Nat)
  deriving DecidableEq, Repr

/-- The pipeline: the channel's buffer, the worker, its `HashSet` of in-flight keys, the clock in
milliseconds, the next deadline of the interval, and the push attempts made with their start. -/
structure Sys where
  queue : List DumpJob
  worker : Loop
  inflight : List String
  clock : Nat
  deadline : Nat
  pushes : List (Nat × DumpJob)
  deriving DecidableEq, Repr

/-- Just after `init_inner`: the interval's first tick completes at once. -/
def Sys.init : Sys := ⟨[], .recv, [], 0, 0, []⟩

/-- A move of one party. -/
inductive Action
  /-- `tx.try_send(job)`: queued, or dropped when the channel is full. -/
  | trySend (job : DumpJob)
  /-- `tx.send(job).await`: queued once there is room. -/
  | send (job : DumpJob)
  /-- `rx.recv()` returns and the in-flight check runs. -/
  | recv
  /-- `tick.tick()` returns. -/
  | tick
  /-- The push attempt ends, done or timed out, and the key leaves the in-flight set. -/
  | finish
  /-- Time passes, though not beyond the expiry of a pending push. -/
  | wait (ms : Nat)
  deriving DecidableEq, Repr

/-- One step, none when the move is not enabled. The tick moves the interval's deadline by
`nextDeadline` and starts the push under its timeout. -/
def step (cfg : Config) (s : Sys) : Action → Option Sys
  | .trySend job =>
    if s.queue.length < cfg.cap then some { s with queue := s.queue ++ [job] } else some s
  | .send job => if s.queue.length < cfg.cap then some { s with queue := s.queue ++ [job] } else none
  | .recv =>
    match s.worker, s.queue with
    | .recv, job :: rest =>
      if job.cacheKey ∈ s.inflight then some { s with queue := rest }
      else some { s with queue := rest, worker := .tick job, inflight := s.inflight.insert job.cacheKey }
    | _, _ => none
  | .tick =>
    match s.worker with
    | .tick job =>
      if s.deadline ≤ s.clock then
        some { s with worker := .push job (s.clock + cfg.timeoutMs),
                      deadline := nextDeadline cfg.tickMs s.deadline s.clock,
                      pushes := s.pushes ++ [(s.clock, job)] }
      else none
    | _ => none
  | .finish =>
    match s.worker with
    | .push job _ => some { s with worker := .recv, inflight := s.inflight.erase job.cacheKey }
    | _ => none
  | .wait ms =>
    match s.worker with
    | .push _ expiry => if s.clock + ms ≤ expiry then some { s with clock := s.clock + ms } else none
    | _ => some { s with clock := s.clock + ms }

/-- The states some interleaving reaches. -/
inductive Reachable (cfg : Config) : Sys → Prop
  | init : Reachable cfg Sys.init
  | next {s s' : Sys} (a : Action) : Reachable cfg s → step cfg s a = some s' → Reachable cfg s'

/-- A run of given moves, none if one is not enabled. -/
def run (cfg : Config) : Sys → List Action → Option Sys
  | s, [] => some s
  | s, a :: as => (step cfg s a).bind fun s' => run cfg s' as

theorem run_append (cfg : Config) (s : Sys) (as bs : List Action) :
    run cfg s (as ++ bs) = (run cfg s as).bind fun s' => run cfg s' bs := by
  induction as generalizing s with
  | nil => rfl
  | cons a as ih => simp only [List.cons_append, run, List.append_eq, ih, Option.bind_assoc]

theorem reachable_of_run (cfg : Config) :
    ∀ (s : Sys) (as : List Action) {s' : Sys}, Reachable cfg s → run cfg s as = some s' →
      Reachable cfg s'
  | s, [], _, h, hr => by cases hr; exact h
  | s, a :: as, _, h, hr => by
    obtain ⟨s₁, h₁, hr⟩ := Option.bind_eq_some.mp hr
    exact reachable_of_run cfg s₁ as (.next a h h₁) hr

/-! ## What a step can do -/

/-- The key the worker holds in flight. -/
def Loop.held : Loop → List String
  | .recv => []
  | .tick job | .push job _ => [job.cacheKey]

/-- The job a move hands to the channel: an enqueue that finds room. -/
def accepted (cfg : Config) (s : Sys) : Action → List DumpJob
  | .trySend job | .send job => if s.queue.length < cfg.cap then [job] else []
  | _ => []

/-- Every step: an enqueue or waiting touches at most the queue, by the job it accepts, and the
clock, which only grows and never passes the expiry of a pending push; `recv` drops a job whose
key is in flight or takes it into the worker; the tick starts the push and moves the deadline;
the end of the push frees the key. -/
theorem step_cases {cfg : Config} {s s' : Sys} {a : Action} (h : step cfg s a = some s') :
    (s'.worker = s.worker ∧ s'.inflight = s.inflight ∧ s'.pushes = s.pushes ∧
      s'.deadline = s.deadline ∧ s.clock ≤ s'.clock ∧ s'.queue = s.queue ++ accepted cfg s a ∧
      ∀ job e, s.worker = .push job e → s.clock ≤ e → s'.clock ≤ e) ∨
    (∃ job rest, a = .recv ∧ s.worker = .recv ∧ s.queue = job :: rest ∧ job.cacheKey ∈ s.inflight ∧
      s' = { s with queue := rest }) ∨
    (∃ job rest, a = .recv ∧ s.worker = .recv ∧ s.queue = job :: rest ∧
      job.cacheKey ∉ s.inflight ∧
      s' = { s with queue := rest, worker := .tick job, inflight := s.inflight.insert job.cacheKey }) ∨
    (∃ job, a = .tick ∧ s.worker = .tick job ∧ s.deadline ≤ s.clock ∧
      s' = { s with worker := .push job (s.clock + cfg.timeoutMs),
                    deadline := nextDeadline cfg.tickMs s.deadline s.clock,
                    pushes := s.pushes ++ [(s.clock, job)] }) ∨
    (∃ job e, a = .finish ∧ s.worker = .push job e ∧
      s' = { s with worker := .recv, inflight := s.inflight.erase job.cacheKey }) := by
  cases a with
  | trySend job | send job =>
    simp only [step] at h
    split at h <;> cases h <;>
      exact .inl ⟨rfl, rfl, rfl, rfl, le_rfl, by simp [accepted, *], fun _ _ _ he => he⟩
  | recv =>
    simp only [step] at h
    split at h
    · rename_i job rest hw hq
      split at h <;> cases h
      · exact .inr (.inl ⟨job, rest, rfl, hw, hq, ‹_›, rfl⟩)
      · exact .inr (.inr (.inl ⟨job, rest, rfl, hw, hq, ‹_›, rfl⟩))
    · cases h
  | tick =>
    simp only [step] at h
    split at h
    · split at h <;> cases h
      exact .inr (.inr (.inr (.inl ⟨_, rfl, ‹_›, ‹_›, rfl⟩)))
    · cases h
  | finish =>
    simp only [step] at h
    split at h <;> cases h
    exact .inr (.inr (.inr (.inr ⟨_, _, rfl, ‹_›, rfl⟩)))
  | wait ms =>
    simp only [step] at h
    split at h
    · rename_i hw
      split at h <;> cases h
      exact .inl ⟨rfl, rfl, rfl, rfl, Nat.le_add_right _ _, by simp [accepted],
        fun _ _ hw' _ => by cases hw.symm.trans hw'; assumption⟩
    · rename_i hne
      cases h
      exact .inl ⟨rfl, rfl, rfl, rfl, Nat.le_add_right _ _, by simp [accepted],
        fun _ _ hw' => (hne _ _ hw').elim⟩

/-- The configuration of `init_default_cache_worker` with no variable set: a queue of `10000`,
`50` queries per second, `2500` ms. -/
def defaultConfig : Config := ⟨defaultQueueCap none, defaultQps none, defaultTimeoutMs none⟩

/-- A job for the key `GET:https://example.com/`. -/
def exampleJob : DumpJob :=
  ⟨"GET:https://example.com/", "example.com", "https://example.com/", "GET", 200, [], [], [],
    .http11, none⟩

/-! ## The in-flight set -/

theorem step_inflight {cfg : Config} {s s' : Sys} {a : Action} (h : step cfg s a = some s')
    (hi : s.inflight = s.worker.held) : s'.inflight = s'.worker.held := by
  rcases step_cases h with ⟨hw, hin, -⟩ | ⟨-, -, -, -, -, -, rfl⟩ | ⟨job, -, -, hw, -, -, rfl⟩ |
      ⟨job, -, hw, -, rfl⟩ | ⟨job, _, -, hw, rfl⟩
  · rw [hw, hin, hi]
  · exact hi
  all_goals simp [hi, hw, Loop.held]

/-- In every reachable state the in-flight set holds the key of the job the worker holds and
nothing else. -/
theorem inflight_eq_held {cfg : Config} {s : Sys} (h : Reachable cfg s) :
    s.inflight = s.worker.held := by
  induction h with
  | init => rfl
  | next a _ hs ih => exact step_inflight hs ih

/-- In every reachable state, `recv` with a job at the head of the queue accepts it: the in-flight
check never drops a job. -/
theorem recv_accepts {cfg : Config} {s : Sys} (h : Reachable cfg s) (hw : s.worker = .recv)
    {job : DumpJob} {rest : List DumpJob} (hq : s.queue = job :: rest) :
    step cfg s .recv =
      some { s with queue := rest, worker := .tick job, inflight := [job.cacheKey] } := by
  have hi := inflight_eq_held h
  rw [hw] at hi
  simp [step, hw, hq, hi, Loop.held]

theorem recv_accepts_first :
    Reachable defaultConfig ((run defaultConfig Sys.init [.send exampleJob]).getD Sys.init) ∧
      step defaultConfig ((run defaultConfig Sys.init [.send exampleJob]).getD Sys.init) .recv =
        some { (run defaultConfig Sys.init [.send exampleJob]).getD Sys.init with
          queue := [], worker := .tick exampleJob, inflight := [exampleJob.cacheKey] } :=
  have hr := reachable_of_run defaultConfig Sys.init [.send exampleJob] .init rfl
  ⟨hr, recv_accepts hr rfl rfl⟩

/-! ## No job is lost or pushed twice -/

/-- The job the worker holds before its tick. -/
def Loop.waiting : Loop → List DumpJob
  | .tick job => [job]
  | _ => []

/-- The jobs in the pipeline, oldest first: pushed, waiting for the tick, queued. -/
def Sys.jobs (s : Sys) : List DumpJob := s.pushes.map Prod.snd ++ s.worker.waiting ++ s.queue

/-- The jobs a run hands to the channel, in order. -/
def runAccepted (cfg : Config) : Sys → List Action → List DumpJob
  | _, [] => []
  | s, a :: as =>
    match step cfg s a with
    | some s' => accepted cfg s a ++ runAccepted cfg s' as
    | none => []

/-- From a reachable state, a step adds the job it enqueues at the end of the pipeline and moves
every other job along without dropping or copying it. -/
theorem step_jobs {cfg : Config} {s s' : Sys} {a : Action} (hr : Reachable cfg s)
    (h : step cfg s a = some s') : s'.jobs = s.jobs ++ accepted cfg s a := by
  rcases step_cases h with ⟨hw, -, hp, -, -, hq, -⟩ | ⟨job, -, -, hw, -, hin, -⟩ |
      ⟨job, rest, rfl, hw, hq, -, rfl⟩ | ⟨job, rfl, hw, -, rfl⟩ | ⟨job, _, rfl, hw, rfl⟩
  · simp [Sys.jobs, hw, hp, hq]
  · -- the in-flight check never drops a job
    rw [inflight_eq_held hr, hw] at hin
    exact absurd hin (List.not_mem_nil _)
  · simp [Sys.jobs, accepted, hw, hq, Loop.waiting]
  all_goals simp [Sys.jobs, accepted, hw, Loop.waiting]

/-- Along any run from a reachable state, the pipeline is what it held followed by the jobs the
run enqueued: every accepted job is pushed at most once, in arrival order, and none is lost. -/
theorem run_jobs (cfg : Config) :
    ∀ (s : Sys) (as : List Action) {s' : Sys}, Reachable cfg s → run cfg s as = some s' →
      s'.jobs = s.jobs ++ runAccepted cfg s as
  | s, [], _, _, hr => by cases hr; simp [runAccepted]
  | s, a :: as, _, h, hr => by
    obtain ⟨s₁, h₁, hr⟩ := Option.bind_eq_some.mp hr
    rw [run_jobs cfg s₁ as (.next a h h₁) hr, step_jobs h h₁, runAccepted, h₁, List.append_assoc]

/-- From the start, the pushes, the held job and the queue are exactly the enqueued jobs. -/
theorem run_jobs_init (cfg : Config) (as : List Action) {s : Sys}
    (hr : run cfg Sys.init as = some s) : s.jobs = runAccepted cfg Sys.init as := by
  simpa [Sys.jobs, Sys.init, Loop.waiting] using run_jobs cfg Sys.init as .init hr

/-- Enqueue a job, let the worker accept it, enqueue the same key again before the first push has
even started, then let the worker run. -/
def sameKeyRun : List Action :=
  [.send exampleJob, .recv, .send exampleJob, .tick, .finish, .recv, .wait 20, .tick]

/-- After the first three moves of `sameKeyRun` the first job waits for its tick and the second is
queued; at the end both have been pushed. -/
theorem same_key_pushed_twice :
    (run defaultConfig Sys.init (sameKeyRun.take 3)).map (fun s => (s.worker, s.queue)) =
        some (.tick exampleJob, [exampleJob]) ∧
      (run defaultConfig Sys.init sameKeyRun).map Sys.pushes =
        some [(0, exampleJob), (20, exampleJob)] :=
  ⟨rfl, rfl⟩

theorem run_jobs_init_sameKey :
    run defaultConfig Sys.init sameKeyRun =
        some ((run defaultConfig Sys.init sameKeyRun).getD Sys.init) ∧
      ((run defaultConfig Sys.init sameKeyRun).getD Sys.init).jobs =
        runAccepted defaultConfig Sys.init sameKeyRun :=
  ⟨rfl, run_jobs_init defaultConfig sameKeyRun rfl⟩

end ChromeyCache.DumpRemote.Worker
