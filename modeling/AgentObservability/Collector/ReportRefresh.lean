import AgentObservability.Foundation.Threads

/-!
# Report refreshes

The collector refreshes its report in the background. Whoever has committed something
calls `schedule_report_refresh`, which counts the request and starts a worker unless
one is scheduled; the worker waits until no more requests come, builds the report, and
goes on until the report is current or its attempts are used up. Other processes
commit to the store too, and `watch_report_authority` looks for what they did.

Every atomic access, every read of the store and every attempt is a step of its own,
and the steps of all threads interleave in any order. Delays are left out: a thread
goes on whenever it may.
-/

namespace AgentObservability.Collector

open Foundation.Threads

/-- `REPORT_RETRY_LIMIT`. -/
def reportRetryLimit : ℕ := 4

/-- `ReportFailure`. -/
inductive ReportFailure where
  /-- `Task`. -/
  | task
  /-- `Install`. -/
  | install
  /-- `OpenStore`. -/
  | openStore
  /-- `RenderGuard`. -/
  | renderGuard
  /-- `Snapshot`. -/
  | snapshot
  /-- `SnapshotChanged`. -/
  | snapshotChanged
  /-- `Projection`. -/
  | projection
  /-- `Publish`. -/
  | publish
  /-- `Capacity`. -/
  | capacity
  /-- `Acknowledge`. -/
  | acknowledge
  /-- `Status`. -/
  | status
  deriving DecidableEq

/-- `ReportStatus`. -/
structure ReportStatus where
  /-- `generation`. -/
  generation : ℕ
  /-- `acknowledged_generation`. -/
  acknowledgedGeneration : ℕ

namespace ReportStatus

variable (status : ReportStatus)

/-- `pending`. -/
def pending : Bool := status.generation ≠ status.acknowledgedGeneration

/-- The status after a commit. -/
def advanced : ReportStatus := { status with generation := status.generation + 1 }

/-- The status after a publication of the current generation. -/
def acknowledged : ReportStatus := { status with acknowledgedGeneration := status.generation }

@[simp] theorem pending_acknowledged : status.acknowledged.pending = false := by simp [acknowledged, pending]

end ReportStatus

/-- How an attempt was judged. -/
inductive Judgement where
  /-- The report is current. -/
  | completed
  /-- A commit came in between. -/
  | contended
  /-- It failed. -/
  | failed
  deriving DecidableEq

/-- An attempt, with the requests that were made before it started. -/
structure Attempt where
  /-- The requests before it. -/
  start : ℕ
  /-- How it was judged. -/
  judgement : Judgement
  deriving DecidableEq

/-- What the threads share: the store's status, the atomics and the collector's fields, and the history. -/
structure Shared where
  /-- `store.report_status()`. -/
  status : ReportStatus
  /-- The requests that were made, of which `report_refresh_requested` is the `counter`. -/
  requested : ℕ
  /-- `report_refresh_scheduled`. -/
  scheduled : Bool
  /-- `report_dirty`. -/
  reportDirty : Bool
  /-- `report_degraded`. -/
  reportDegraded : Bool
  /-- `report_refresh_failures`. -/
  reportRefreshFailures : ℕ
  /-- `report_failure`. -/
  reportFailure : Option ReportFailure
  /-- `observed_generation` of the watcher. -/
  observedGeneration : ℕ
  /-- The requests that were made before the last attempt started. -/
  lastStart : ℕ
  /-- The attempts that were judged, the last one first. -/
  attempts : List Attempt

/-- `report_status().map_or(true, pending)`, of a status that could be read or not. -/
def Shared.pendingAsRead (s : Shared) (readable : Bool) : Bool := if readable then s.status.pending else true

/-- The value of the atomic counter after so many requests. -/
def counter (requested : ℕ) : UInt64 := UInt64.ofNat requested

/-- Where a thread is. Values that it has read of the counter stand as the requests they counted. -/
inductive Thread where
  /-- It calls `schedule_report_refresh_with_timing`. -/
  | scheduling
  /-- It has made a request, and swaps the flag next. -/
  | requesting (request : ℕ)
  /-- The worker is at the head of its loop. -/
  | starting (failureAttempts : ℕ)
  /-- `await_report_debounce` sleeps. -/
  | debouncing (observed : ℕ)
  /-- It reads `attempt_epoch` next. -/
  | ready (failureAttempts : ℕ)
  /-- It attempts a refresh. -/
  | attempting (failureAttempts attemptEpoch : ℕ)
  /-- It has the result of its attempt. -/
  | attempted (failureAttempts attemptEpoch : ℕ) (result : Except ReportFailure Bool)
  /-- It clears the flag next, after a refresh that is current. -/
  | completing (attemptEpoch : ℕ)
  /-- It reads `requested_after_clear` next. -/
  | cleared (attemptEpoch : ℕ)
  /-- It reads the store's status next. -/
  | checking (attemptEpoch requestedAfterClear : ℕ)
  /-- It cleans up, after its last attempt. -/
  | exhausted (attemptEpoch : ℕ)
  /-- It clears the flag next, after its last attempt. -/
  | releasing (attemptEpoch : ℕ)
  /-- It reads the counter for the last time next. -/
  | released (attemptEpoch : ℕ)
  deriving DecidableEq

/-- What an attempt failed with, if the store's status could be read after it, and if not. -/
def attemptFailure (result : Except ReportFailure Bool) (readable : Bool) : Option ReportFailure :=
  match readable, result with
  | false, _ => some .status
  | true, .ok _ => none
  | true, .error failure => some failure

/-- What the worker makes of the result of an attempt, when it has read the store's status or could not read it. -/
def judge (s : Shared) (failureAttempts attemptEpoch : ℕ) (result : Except ReportFailure Bool) (readable : Bool) :
    Shared × Thread :=
  let refresh := result.toOption
  let failure := attemptFailure result readable
  let pending := s.pendingAsRead readable
  let s := { s with reportDirty := pending }
  if refresh.isSome && !pending then
    ({ s with
      reportDegraded := false
      reportRefreshFailures := 0
      reportFailure := none
      attempts := ⟨attemptEpoch, .completed⟩ :: s.attempts }, .completing attemptEpoch)
  else if failure = some .snapshotChanged ∨ (refresh.isSome ∧ failure = none) then
    ({ s with
      reportDegraded := true
      reportFailure := if s.reportFailure.isNone then some .snapshotChanged else s.reportFailure
      attempts := ⟨attemptEpoch, .contended⟩ :: s.attempts }, .starting 0)
  else
    let s := { s with
      reportRefreshFailures := min (s.reportRefreshFailures + 1) (2 ^ 32 - 1)
      reportFailure := failure
      attempts := ⟨attemptEpoch, .failed⟩ :: s.attempts }
    if failureAttempts + 1 = reportRetryLimit then ({ s with reportDegraded := true }, .exhausted attemptEpoch)
    else (s, .starting (failureAttempts + 1))

/-- A step of a thread. -/
inductive ThreadStep : Thread → Shared → Shared → Multiset Thread → Prop
  /-- The call counts its request. -/
  | request (s : Shared) :
      ThreadStep .scheduling s { s with requested := s.requested + 1 } {.requesting (s.requested + 1)}
  /-- The call finds a worker scheduled. -/
  | refused (s : Shared) (request : ℕ) : s.scheduled = true → ThreadStep (.requesting request) s s 0
  /-- The call sets the flag and starts a worker. -/
  | spawned (s : Shared) (request : ℕ) : s.scheduled = false →
      ThreadStep (.requesting request) s { s with scheduled := true } {.starting 0}
  /-- The worker waits for the requests to stop. -/
  | debounce (s : Shared) : ThreadStep (.starting 0) s s {.debouncing s.requested}
  /-- There were more requests. -/
  | debounceAgain (s : Shared) (observed : ℕ) : counter s.requested ≠ counter observed →
      ThreadStep (.debouncing observed) s s {.debouncing s.requested}
  /-- There were no more requests. -/
  | debounced (s : Shared) (observed : ℕ) : counter s.requested = counter observed →
      ThreadStep (.debouncing observed) s s {.ready 0}
  /-- The worker has slept after a failure. -/
  | slept (s : Shared) (failures : ℕ) : ThreadStep (.starting (failures + 1)) s s {.ready (failures + 1)}
  /-- The worker reads `attempt_epoch`. -/
  | start (s : Shared) (failures : ℕ) :
      ThreadStep (.ready failures) s { s with lastStart := s.requested } {.attempting failures s.requested}
  /-- The attempt acknowledges the current generation, or does not. -/
  | attempt (s : Shared) (failures epoch : ℕ) (published : Bool) (result : Except ReportFailure Bool) :
      ThreadStep (.attempting failures epoch) s
        { s with status := if published then s.status.acknowledged else s.status } {.attempted failures epoch result}
  /-- The attempt is judged. -/
  | judge (s : Shared) (failures epoch : ℕ) (result : Except ReportFailure Bool) (readable : Bool) :
      ThreadStep (.attempted failures epoch result) s (judge s failures epoch result readable).1
        {(judge s failures epoch result readable).2}
  /-- The flag is cleared. -/
  | clear (s : Shared) (epoch : ℕ) : ThreadStep (.completing epoch) s { s with scheduled := false } {.cleared epoch}
  /-- The counter is read again. -/
  | recheck (s : Shared) (epoch : ℕ) : ThreadStep (.cleared epoch) s s {.checking epoch s.requested}
  /-- The store's status is read again, or cannot be read. -/
  | settle (s : Shared) (epoch requestedAfterClear : ℕ) (readable : Bool) :
      ThreadStep (.checking epoch requestedAfterClear) s { s with reportDirty := s.pendingAsRead readable }
        (if counter requestedAfterClear ≠ counter epoch ∨ s.pendingAsRead readable = true then {.scheduling} else 0)
  /-- The reservation is cleaned up, or that fails. -/
  | cleanedUp (s : Shared) (epoch : ℕ) (failure : Option ReportFailure) :
      ThreadStep (.exhausted epoch) s
        { s with reportFailure := if failure.isSome then failure else s.reportFailure } {.releasing epoch}
  /-- The flag is cleared. -/
  | release (s : Shared) (epoch : ℕ) : ThreadStep (.releasing epoch) s { s with scheduled := false } {.released epoch}
  /-- The counter is read for the last time. -/
  | retry (s : Shared) (epoch : ℕ) : ThreadStep (.released epoch) s s
      (if counter s.requested ≠ counter epoch then {.scheduling} else 0)

/-- `poll_report_authority`, when the store's status could be read. -/
def pollReportAuthority (s : Shared) : Shared × Bool :=
  let changed := s.status.generation ≠ s.observedGeneration
  let s := { s with reportDirty := s.status.pending, observedGeneration := s.status.generation }
  (if !s.status.pending then { s with reportDegraded := false, reportRefreshFailures := 0, reportFailure := none } else s,
    s.status.pending && changed)

/-- What happens beside the threads. -/
inductive CollectorEvent : Shared → Shared → Multiset Thread → Prop
  /-- The collector commits, and calls `schedule_report_refresh`. -/
  | commit (s : Shared) (degraded : Bool) (failure : Option ReportFailure) (dirty : Bool) :
      CollectorEvent s { s with
        status := s.status.advanced
        reportDirty := dirty
        reportDegraded := s.reportDegraded || degraded
        reportFailure := if failure.isSome then failure else s.reportFailure } {.scheduling}
  /-- `schedule_report_refresh` is called without a new commit. -/
  | call (s : Shared) : CollectorEvent s s {.scheduling}
  /-- Another process commits. -/
  | externalCommit (s : Shared) : CollectorEvent s { s with status := s.status.advanced } 0
  /-- Another process publishes the report. -/
  | externalPublication (s : Shared) : CollectorEvent s { s with status := s.status.acknowledged } 0
  /-- The watcher polls, and calls `schedule_report_refresh` if there is something new. -/
  | poll (s : Shared) : CollectorEvent s (pollReportAuthority s).1 (if (pollReportAuthority s).2 then {.scheduling} else 0)
  /-- The watcher cannot poll. -/
  | pollFailed (s : Shared) :
      CollectorEvent s { s with reportDirty := true, reportDegraded := true, reportFailure := some .status } 0

/-- The collector. -/
def collector : Machine Shared Thread where
  step := ThreadStep
  event := CollectorEvent

/-- The collector when it has started. -/
structure Initial (c : Config Shared Thread) : Prop where
  requested : c.shared.requested = 0
  scheduled : c.shared.scheduled = false
  lastStart : c.shared.lastStart = 0
  attempts : c.shared.attempts = []
  observedGeneration : c.shared.observedGeneration = c.shared.status.generation
  /-- A report that is pending is scheduled. -/
  threads : c.threads = {.scheduling} ∨ c.threads = 0 ∧ c.shared.status.pending = false

/-- The states of a collector. -/
def Reachable (c : Config Shared Thread) : Prop := ∃ c₀, Initial c₀ ∧ Reaches collector c₀ c

end AgentObservability.Collector
