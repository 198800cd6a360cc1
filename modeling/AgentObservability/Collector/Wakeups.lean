import AgentObservability.Collector.ReportRefresh

/-!
# No refresh is lost

In any order of the steps, whatever is still to be refreshed is on a thread that will
see to it: a request that came after the last attempt started (`MissedRequest`), and a
report that is pending though nothing excuses it (`MissedReport`). So when nothing
runs any more, nothing was missed (`refresh_notLost`).
-/

namespace AgentObservability.Collector

open Foundation.Threads

/-! ### The worker -/

/-- The thread is the worker that holds the flag. -/
def Thread.owns : Thread → ℕ
  | .starting _ | .debouncing _ | .ready _ | .attempting .. | .attempted .. | .completing _ | .exhausted _
  | .releasing _ => 1
  | _ => 0

/-- So many of the last attempts have failed. -/
def FailedLast (n : ℕ) (attempts : List Attempt) : Prop :=
  n ≤ attempts.length ∧ ∀ a ∈ attempts.take n, a.judgement = .failed

theorem failedLast_zero (attempts : List Attempt) : FailedLast 0 attempts := ⟨Nat.zero_le _, nofun⟩

theorem failedLast_cons {n : ℕ} {attempts : List Attempt} (h : FailedLast n attempts) (epoch : ℕ) :
    FailedLast (n + 1) (⟨epoch, .failed⟩ :: attempts) := by
  refine ⟨Nat.succ_le_succ h.1, fun a ha => ?_⟩
  cases List.mem_cons.mp ha with
  | inl heq => rw [heq]
  | inr hmem => exact h.2 a hmem

/-- What a thread remembers is so. -/
def Thread.Fits (s : Shared) : Thread → Prop
  | .requesting request => request ≤ s.requested
  | .starting failures | .ready failures => FailedLast failures s.attempts
  | .attempting failures epoch | .attempted failures epoch _ => FailedLast failures s.attempts ∧ epoch = s.lastStart
  | .completing epoch | .exhausted epoch | .releasing epoch => epoch = s.lastStart
  | .checking _ requestedAfterClear => requestedAfterClear ≤ s.requested
  | _ => True

/-- How an attempt is judged: the fields that stay, and where the worker goes on. -/
structure Judged (s : Shared) (failures epoch : ℕ) (s' : Shared) (t : Thread) : Prop where
  status : s'.status = s.status
  requested : s'.requested = s.requested
  scheduled : s'.scheduled = s.scheduled
  observedGeneration : s'.observedGeneration = s.observedGeneration
  lastStart : s'.lastStart = s.lastStart
  next : t = .completing epoch ∨ t = .starting 0 ∨
    (t = .starting (failures + 1) ∧ s'.attempts = ⟨epoch, .failed⟩ :: s.attempts) ∨
    (t = .exhausted epoch ∧ failures + 1 = reportRetryLimit ∧ s'.attempts = ⟨epoch, .failed⟩ :: s.attempts ∧
      s'.reportDegraded = true)

theorem judged (s : Shared) (failures epoch : ℕ) (result : Except ReportFailure Bool) (readable : Bool) :
    Judged s failures epoch (judge s failures epoch result readable).1 (judge s failures epoch result readable).2 := by
  unfold judge
  simp only
  split
  · exact ⟨rfl, rfl, rfl, rfl, rfl, .inl rfl⟩
  · split
    · exact ⟨rfl, rfl, rfl, rfl, rfl, .inr (.inl rfl)⟩
    · by_cases hlimit : failures + 1 = reportRetryLimit
      · rw [if_pos hlimit]
        exact ⟨rfl, rfl, rfl, rfl, rfl, .inr (.inr (.inr ⟨rfl, hlimit, rfl, rfl⟩))⟩
      · rw [if_neg hlimit]
        exact ⟨rfl, rfl, rfl, rfl, rfl, .inr (.inr (.inl ⟨rfl, rfl⟩))⟩

/-- The fields that a poll leaves alone, and the generation that it has seen. -/
theorem polled (s : Shared) : (pollReportAuthority s).1.status = s.status ∧
    (pollReportAuthority s).1.requested = s.requested ∧ (pollReportAuthority s).1.lastStart = s.lastStart ∧
    (pollReportAuthority s).1.attempts = s.attempts ∧
    (pollReportAuthority s).1.observedGeneration = s.status.generation := by
  unfold pollReportAuthority
  by_cases hp : (!s.status.pending) = true
  · simp only [hp, if_true, and_self]
  · simp only [hp, if_false, and_self, Bool.false_eq_true]

variable {s s' : Shared} {t u : Thread} {new others : Multiset Thread} {c c' : Config Shared Thread}

/-- The worker is where the flag says. -/
def Owned (c : Config Shared Thread) : Prop := count Thread.owns c.threads = if c.shared.scheduled then 1 else 0

theorem owned_step (h : ThreadStep t s s' new) (hc : Owned ⟨s, t ::ₘ others⟩) : Owned ⟨s', new + others⟩ := by
  unfold Owned at hc ⊢
  simp only [count_cons, count_add] at hc ⊢
  cases h with
  | request | debounce | debounceAgain | debounced | slept | start | attempt | recheck | cleanedUp => simpa [Thread.owns] using hc
  | refused _ request hs => simpa [Thread.owns] using hc
  | spawned _ request hs =>
    simp only [hs, Thread.owns] at hc
    simp [Thread.owns]
    simpa using hc
  | judge _ failures epoch result readable =>
    obtain ⟨_, _, hscheduled, _, _, hnext⟩ := judged s failures epoch result readable
    rw [hscheduled, ← hc]
    rcases hnext with hn | hn | ⟨hn, _⟩ | ⟨hn, _⟩ <;> simp [hn, Thread.owns]
  | clear | release =>
    have hle : (if s.scheduled = true then 1 else 0) ≤ 1 := by split <;> decide
    simp only [Thread.owns] at hc
    simp [Thread.owns]
    omega
  | settle | retry =>
    rw [← hc]
    split_ifs <;> simp [Thread.owns]

theorem owned_event (h : CollectorEvent s s' new) (hc : Owned ⟨s, others⟩) : Owned ⟨s', new + others⟩ := by
  unfold Owned at hc ⊢
  simp only [count_add] at hc ⊢
  cases h with
  | commit | call | externalCommit | externalPublication | pollFailed => simpa [Thread.owns] using hc
  | poll =>
    unfold pollReportAuthority
    simp only
    rw [hc]
    split_ifs <;> simp [Thread.owns]

/-- Beside the worker there is no other. -/
theorem owns_eq_zero (hc : Owned ⟨s, t ::ₘ others⟩) (ht : t.owns = 1) (hu : u ∈ others) : u.owns = 0 := by
  unfold Owned at hc
  rw [count_cons, ht] at hc
  have hzero : count Thread.owns others = 0 := by
    simp only at hc
    split at hc <;> omega
  have hle : u.owns ≤ count Thread.owns others := le_count_of_mem hu
  omega

/-- Where the flag is set, another thread is the worker. -/
theorem exists_owner (hc : Owned ⟨s, t ::ₘ others⟩) (ht : t.owns = 0) (hs : s.scheduled = true) :
    ∃ u ∈ others, 0 < u.owns := by
  refine exists_of_count_pos ?_
  unfold Owned at hc
  rw [count_cons, ht] at hc
  simp only [hs, if_true, zero_add] at hc
  omega

/-- What the threads remember and what the state has is so. -/
structure Coherent (c : Config Shared Thread) : Prop where
  observedGeneration : c.shared.observedGeneration ≤ c.shared.status.generation
  lastStart : c.shared.lastStart ≤ c.shared.requested
  fits : ∀ t ∈ c.threads, t.Fits c.shared

theorem fits_of_same (hr : s.requested ≤ s'.requested) (hl : s'.lastStart = s.lastStart) (ha : s'.attempts = s.attempts)
    (h : u.Fits s) : u.Fits s' := by
  cases u with
  | requesting | checking => exact h.trans hr
  | scheduling | debouncing | cleared | released => trivial
  | starting | ready | attempting | attempted | completing | exhausted | releasing =>
    simp only [Thread.Fits, hl, ha] at h ⊢
    exact h

/-- Who is not the worker remembers requests only. -/
theorem fits_of_owns_eq_zero (hr : s.requested ≤ s'.requested) (hu : u.owns = 0) (h : u.Fits s) : u.Fits s' := by
  cases u with
  | requesting | checking => exact h.trans hr
  | scheduling | cleared | released => trivial
  | starting | debouncing | ready | attempting | attempted | completing | exhausted | releasing => simp [Thread.owns] at hu

/-- What leaves the attempts alone leaves alone what the threads remember. -/
theorem coherent_of_same (h : Coherent ⟨s, others⟩) (hr : s.requested ≤ s'.requested) (hl : s'.lastStart = s.lastStart)
    (ha : s'.attempts = s.attempts) (ho : s'.observedGeneration ≤ s'.status.generation) (hnew : ∀ u ∈ new, u.Fits s') :
    Coherent ⟨s', new + others⟩ where
  observedGeneration := ho
  lastStart := by
    have hle := h.lastStart
    simp only [hl] at hle ⊢
    exact hle.trans hr
  fits u hu := by
    cases Multiset.mem_add.mp hu with
    | inl hmem => exact hnew u hmem
    | inr hmem => exact fits_of_same hr hl ha (h.fits u hmem)

theorem Coherent.tail (h : Coherent ⟨s, t ::ₘ others⟩) : Coherent ⟨s, others⟩ :=
  ⟨h.observedGeneration, h.lastStart, fun u hu => h.fits u (Multiset.mem_cons_of_mem hu)⟩

theorem coherent_step (h : ThreadStep t s s' new) (ho : Owned ⟨s, t ::ₘ others⟩) (hc : Coherent ⟨s, t ::ₘ others⟩) :
    Coherent ⟨s', new + others⟩ := by
  have hfits : t.Fits s := hc.fits t (Multiset.mem_cons_self t others)
  have hobserved := hc.observedGeneration
  cases h with
  | request =>
    refine coherent_of_same hc.tail (Nat.le_succ _) rfl rfl hobserved fun u hu => ?_
    rw [Multiset.mem_singleton.mp hu]
    exact le_rfl
  | refused | settle | retry =>
    refine coherent_of_same hc.tail le_rfl rfl rfl hobserved fun u hu => ?_
    first
    | exact absurd hu (Multiset.notMem_zero u)
    | split_ifs at hu with hif
      · rw [Multiset.mem_singleton.mp hu]
        trivial
      · exact absurd hu (Multiset.notMem_zero u)
  | spawned | debounced =>
    refine coherent_of_same hc.tail le_rfl rfl rfl hobserved fun u hu => ?_
    rw [Multiset.mem_singleton.mp hu]
    exact failedLast_zero _
  | debounce | debounceAgain | recheck =>
    refine coherent_of_same hc.tail le_rfl rfl rfl hobserved fun u hu => ?_
    rw [Multiset.mem_singleton.mp hu]
    first
    | trivial
    | exact le_rfl
  | clear | release =>
    refine coherent_of_same hc.tail le_rfl rfl rfl hobserved fun u hu => ?_
    rw [Multiset.mem_singleton.mp hu]
    trivial
  | slept | cleanedUp =>
    refine coherent_of_same hc.tail le_rfl rfl rfl hobserved fun u hu => ?_
    rw [Multiset.mem_singleton.mp hu]
    exact hfits
  | attempt _ failures epoch published result =>
    refine coherent_of_same hc.tail le_rfl rfl rfl ?_ fun u hu => ?_
    · cases published with
      | true | false => exact hobserved
    · rw [Multiset.mem_singleton.mp hu]
      exact hfits
  | start _ failures =>
    refine ⟨hobserved, le_rfl, fun u hu => ?_⟩
    cases Multiset.mem_add.mp hu with
    | inl hmem =>
      rw [Multiset.mem_singleton.mp hmem]
      exact ⟨hfits, rfl⟩
    | inr hmem => exact fits_of_owns_eq_zero (s := s) le_rfl (owns_eq_zero ho rfl hmem) (hc.tail.fits u hmem)
  | judge _ failures epoch result readable =>
    obtain ⟨hstatus, hrequested, _, hgeneration, hlast, hnext⟩ := judged s failures epoch result readable
    obtain ⟨hfailed, hepoch⟩ := hfits
    refine ⟨?_, ?_, fun u hu => ?_⟩
    · simp only [hstatus, hgeneration]
      exact hobserved
    · simp only [hlast, hrequested]
      exact hc.lastStart
    · cases Multiset.mem_add.mp hu with
      | inl hmem =>
        rw [Multiset.mem_singleton.mp hmem]
        rcases hnext with hn | hn | ⟨hn, ha⟩ | ⟨hn, _, ha, _⟩
        · rw [hn]
          exact hepoch.trans hlast.symm
        · rw [hn]
          exact failedLast_zero _
        · rw [hn]
          show FailedLast (failures + 1) (judge s failures epoch result readable).1.attempts
          rw [ha]
          exact failedLast_cons hfailed epoch
        · rw [hn]
          exact hepoch.trans hlast.symm
      | inr hmem => exact fits_of_owns_eq_zero hrequested.ge (owns_eq_zero ho rfl hmem) (hc.tail.fits u hmem)

theorem coherent_event (h : CollectorEvent s s' new) (hc : Coherent ⟨s, others⟩) : Coherent ⟨s', new + others⟩ := by
  have hobserved := hc.observedGeneration
  cases h with
  | commit | call =>
    refine coherent_of_same hc le_rfl rfl rfl (hobserved.trans (by simp [ReportStatus.advanced])) fun u hu => ?_
    rw [Multiset.mem_singleton.mp hu]
    trivial
  | externalCommit =>
    exact coherent_of_same hc le_rfl rfl rfl (hobserved.trans (Nat.le_succ _)) fun u hu => absurd hu (Multiset.notMem_zero u)
  | externalPublication | pollFailed =>
    exact coherent_of_same hc le_rfl rfl rfl hobserved fun u hu => absurd hu (Multiset.notMem_zero u)
  | poll =>
    have hnew : ∀ u ∈ (if (pollReportAuthority s).2 then {Thread.scheduling} else 0 : Multiset Thread),
        u.Fits (pollReportAuthority s).1 := by
      intro u hu
      split_ifs at hu
      · rw [Multiset.mem_singleton.mp hu]
        trivial
      · exact absurd hu (Multiset.notMem_zero u)
    obtain ⟨hstatus, hrequested, hlast, hattempts, hgeneration⟩ := polled s
    refine coherent_of_same hc hrequested.ge hlast hattempts ?_ hnew
    rw [hgeneration, hstatus]

/-! ### Requests -/

/-- So few requests came after the last attempt started that the counter tells them apart. -/
def Countable (s : Shared) : Prop := s.requested < s.lastStart + 2 ^ 64

/-- A request came after the last attempt started. -/
def MissedRequest (s : Shared) : Prop := Countable s ∧ s.requested ≠ s.lastStart

/-- The thread will see to a request that came after the last attempt started. -/
def Thread.SeesRequest (s : Shared) : Thread → Prop
  | .cleared epoch | .released epoch => epoch = s.lastStart
  | .checking epoch requestedAfterClear => counter requestedAfterClear ≠ counter epoch
  | _ => True

theorem counter_ne {n epoch : ℕ} (hle : epoch ≤ n) (hlt : n < epoch + 2 ^ 64) (hne : n ≠ epoch) :
    counter n ≠ counter epoch := by
  intro h
  have hmod : n % 2 ^ 64 = epoch % 2 ^ 64 := by
    have := congrArg UInt64.toNat h
    simpa [counter] using this
  omega

/-- The worker sees to every request. -/
theorem seesRequest_of_owns (h : 0 < u.owns) : u.SeesRequest s := by
  cases u with
  | scheduling | requesting | cleared | checking | released => simp [Thread.owns] at h
  | starting | debouncing | ready | attempting | attempted | completing | exhausted | releasing => trivial

theorem seesRequest_of_same (hl : s'.lastStart = s.lastStart) (h : u.SeesRequest s) : u.SeesRequest s' := by
  cases u with
  | cleared epoch | released epoch => exact Eq.trans h hl.symm
  | _ => exact h

theorem request_step (h : ThreadStep t s s' new) (ho : Owned ⟨s, t ::ₘ others⟩) (hc : Coherent ⟨s, t ::ₘ others⟩)
    (hb : Borne MissedRequest Thread.SeesRequest ⟨s, t ::ₘ others⟩) :
    Borne MissedRequest Thread.SeesRequest ⟨s', new + others⟩ := by
  have hfits : t.Fits s := hc.fits t (Multiset.mem_cons_self t others)
  have hlast : s.lastStart ≤ s.requested := hc.lastStart
  cases h with
  | request | spawned | debounce | debounceAgain | debounced | slept | attempt | cleanedUp =>
    exact borne_new ⟨_, Multiset.mem_singleton_self _, trivial⟩
  | refused _ request hs =>
    refine borne_step hb id (fun _ _ => ?_) fun _ _ _ h => h
    obtain ⟨u, hu, howns⟩ := exists_owner ho rfl hs
    exact ⟨u, Multiset.mem_add.mpr (.inr hu), seesRequest_of_owns howns⟩
  | start => exact fun hd => absurd rfl hd.2
  | judge _ failures epoch result readable =>
    refine borne_new ⟨_, Multiset.mem_singleton_self _, ?_⟩
    rcases (judged s failures epoch result readable).next with hn | hn | ⟨hn, _⟩ | ⟨hn, _⟩ <;> rw [hn] <;> trivial
  | clear | release => exact borne_new ⟨_, Multiset.mem_singleton_self _, hfits⟩
  | recheck _ epoch =>
    refine borne_step hb id (fun hd hsees => ?_) fun _ _ _ h => h
    refine ⟨_, Multiset.mem_add.mpr (.inl (Multiset.mem_singleton_self _)), ?_⟩
    obtain rfl : epoch = s.lastStart := hsees
    exact counter_ne hlast hd.1 hd.2
  | settle _ epoch requestedAfterClear readable =>
    refine borne_step hb id (fun _ hsees => ?_) fun _ _ _ h => h
    have hne : counter requestedAfterClear ≠ counter epoch := hsees
    rw [if_pos (.inl hne)]
    exact ⟨_, Multiset.mem_add.mpr (.inl (Multiset.mem_singleton_self _)), trivial⟩
  | retry _ epoch =>
    refine borne_step hb id (fun hd hsees => ?_) fun _ _ _ h => h
    obtain rfl : epoch = s.lastStart := hsees
    rw [if_pos (counter_ne hlast hd.1 hd.2)]
    exact ⟨_, Multiset.mem_add.mpr (.inl (Multiset.mem_singleton_self _)), trivial⟩

theorem request_event (h : CollectorEvent s s' new) (hb : Borne MissedRequest Thread.SeesRequest ⟨s, others⟩) :
    Borne MissedRequest Thread.SeesRequest ⟨s', new + others⟩ := by
  cases h with
  | commit | call | externalCommit | externalPublication | pollFailed =>
    exact borne_event hb id fun _ _ _ h => seesRequest_of_same rfl h
  | poll =>
    obtain ⟨_, hrequested, hlast, _⟩ := polled s
    refine borne_event hb (fun hd => ?_) fun _ _ _ h => seesRequest_of_same hlast h
    unfold MissedRequest Countable at hd ⊢
    rwa [hrequested, hlast] at hd

/-! ### Reports -/

/-- The last attempts that the worker makes have all failed, and the collector says so. -/
def Exhausted (s : Shared) : Prop := FailedLast reportRetryLimit s.attempts ∧ s.reportDegraded = true

/-- The report is pending, the watcher has seen why, and the attempts are not used up. -/
def MissedReport (s : Shared) : Prop :=
  Countable s ∧ s.status.pending = true ∧ s.observedGeneration = s.status.generation ∧ ¬ Exhausted s

/-- The thread will see to a report that is pending. -/
def Thread.SeesReport (s : Shared) : Thread → Prop
  | .requesting request => s.lastStart < request
  | .exhausted _ | .releasing _ => s.requested ≠ s.lastStart
  | .released epoch => epoch = s.lastStart ∧ s.requested ≠ s.lastStart
  | _ => True

/-- The worker sees to every report after a request that it has not started on. -/
theorem seesReport_of_owns (h : 0 < u.owns) (hr : s.lastStart < s.requested) : u.SeesReport s := by
  cases u with
  | scheduling | requesting | cleared | checking | released => simp [Thread.owns] at h
  | starting | debouncing | ready | attempting | attempted | completing => trivial
  | exhausted | releasing => exact hr.ne'

theorem seesReport_of_same (hl : s'.lastStart = s.lastStart) (hr : s'.requested = s.requested) (h : u.SeesReport s) :
    u.SeesReport s' := by
  cases u with
  | requesting | exhausted | releasing | released =>
    simp only [Thread.SeesReport, hl, hr] at h ⊢
    exact h
  | _ => trivial

theorem report_step (h : ThreadStep t s s' new) (ho : Owned ⟨s, t ::ₘ others⟩) (hc : Coherent ⟨s, t ::ₘ others⟩)
    (hb : Borne MissedReport Thread.SeesReport ⟨s, t ::ₘ others⟩) :
    Borne MissedReport Thread.SeesReport ⟨s', new + others⟩ := by
  have hfits : t.Fits s := hc.fits t (Multiset.mem_cons_self t others)
  have hlast : s.lastStart ≤ s.requested := hc.lastStart
  have hnew : ∀ {s'' : Shared} {v : Thread}, v.SeesReport s'' → ∃ u ∈ ({v} : Multiset Thread), u.SeesReport s'' :=
    fun hv => ⟨_, Multiset.mem_singleton_self _, hv⟩
  cases h with
  | request => exact borne_new (hnew (Nat.lt_succ_of_le hlast))
  | spawned | debounce | debounceAgain | debounced | slept | start | attempt | clear | recheck =>
    exact borne_new (hnew trivial)
  | refused _ request hs =>
    refine borne_step hb id (fun _ hsees => ?_) fun _ _ _ h => h
    obtain ⟨u, hu, howns⟩ := exists_owner ho rfl hs
    have hlt : s.lastStart < request := hsees
    exact ⟨u, Multiset.mem_add.mpr (.inr hu), seesReport_of_owns howns (hlt.trans_le hfits)⟩
  | judge _ failures epoch result readable =>
    obtain ⟨hfailed, _⟩ := hfits
    rcases (judged s failures epoch result readable).next with hn | hn | ⟨hn, _⟩ | ⟨hn, hlimit, ha, hdegraded⟩
    · exact borne_new (hnew (by rw [hn]; trivial))
    · exact borne_new (hnew (by rw [hn]; trivial))
    · exact borne_new (hnew (by rw [hn]; trivial))
    · refine fun hd => absurd ⟨?_, hdegraded⟩ hd.2.2.2
      rw [ha, ← hlimit]
      exact failedLast_cons hfailed epoch
  | settle _ epoch requestedAfterClear readable =>
    intro hd
    have hpending : s.pendingAsRead readable = true := by
      cases readable with
      | true => exact hd.2.1
      | false => rfl
    rw [if_pos (.inr hpending)]
    exact borne_new (hnew trivial) hd
  | cleanedUp | release =>
    refine borne_step hb id (fun _ hsees => ⟨_, Multiset.mem_add.mpr (.inl (Multiset.mem_singleton_self _)), ?_⟩)
      fun _ _ _ h => seesReport_of_same rfl rfl h
    first
    | exact hsees
    | exact ⟨hfits, hsees⟩
  | retry _ epoch =>
    refine borne_step hb id (fun hd hsees => ?_) fun _ _ _ h => h
    obtain ⟨rfl, hne⟩ : epoch = s.lastStart ∧ s.requested ≠ s.lastStart := hsees
    rw [if_pos (counter_ne hlast hd.1 hne)]
    exact ⟨_, Multiset.mem_add.mpr (.inl (Multiset.mem_singleton_self _)), trivial⟩

theorem report_event (h : CollectorEvent s s' new) (hc : Coherent ⟨s, others⟩)
    (hb : Borne MissedReport Thread.SeesReport ⟨s, others⟩) : Borne MissedReport Thread.SeesReport ⟨s', new + others⟩ := by
  have hscheduling : ∀ {s'' : Shared}, ∃ u ∈ ({Thread.scheduling} : Multiset Thread), u.SeesReport s'' :=
    ⟨_, Multiset.mem_singleton_self _, trivial⟩
  cases h with
  | commit | call => exact borne_new hscheduling
  | externalCommit =>
    -- The watcher has yet to see this generation.
    have hobserved : s.observedGeneration ≤ s.status.generation := hc.observedGeneration
    intro hd
    have heq : s.observedGeneration = s.status.generation + 1 := hd.2.2.1
    omega
  | externalPublication => exact fun hd => absurd hd.2.1 (by simp)
  | pollFailed =>
    refine borne_event hb (fun hd => ⟨hd.1, hd.2.1, hd.2.2.1, fun he => hd.2.2.2 ⟨he.1, rfl⟩⟩) fun _ _ _ h => ?_
    exact seesReport_of_same rfl rfl h
  | poll =>
    obtain ⟨hstatus, hrequested, hlast, _⟩ := polled s
    by_cases hp : s.status.pending = true
    · by_cases hchanged : s.status.generation = s.observedGeneration
      · have hsame : (pollReportAuthority s).1 = { s with reportDirty := s.status.pending } := by
          simp [pollReportAuthority, hp, hchanged]
        refine borne_event hb (fun hd => ?_) fun _ _ _ h => seesReport_of_same hlast hrequested h
        rw [hsame] at hd
        exact hd
      · have hwake : (pollReportAuthority s).2 = true := by simp [pollReportAuthority, hp, hchanged]
        rw [if_pos hwake]
        exact borne_new hscheduling
    · exact fun hd => absurd (hstatus ▸ hd.2.1) hp

/-! ### The collector -/

/-- What holds in every state of the collector. -/
structure Invariant (c : Config Shared Thread) : Prop where
  owned : Owned c
  coherent : Coherent c
  request : Borne MissedRequest Thread.SeesRequest c
  report : Borne MissedReport Thread.SeesReport c

theorem invariant_initial (h : Initial c) : Invariant c := by
  obtain ⟨s, threads⟩ := c
  obtain ⟨hrequested, hscheduled, hlast, hattempts, hobserved, hthreads⟩ := h
  simp only at hrequested hscheduled hlast hattempts hobserved hthreads
  refine ⟨?_, ⟨hobserved.le, by simp [hlast, hrequested], ?_⟩, fun hd => ?_, fun hd => ?_⟩
  · rcases hthreads with rfl | ⟨rfl, _⟩ <;> simp [Owned, hscheduled, Thread.owns]
  · intro t ht
    rcases hthreads with rfl | ⟨rfl, _⟩
    · rw [Multiset.mem_singleton.mp ht]
      trivial
    · exact absurd ht (Multiset.notMem_zero t)
  · exact absurd (hrequested.trans hlast.symm) hd.2
  · rcases hthreads with rfl | ⟨rfl, hp⟩
    · exact ⟨_, Multiset.mem_singleton_self _, trivial⟩
    · exact absurd hd.2.1 (by simp [hp])

/-- **In any order of the steps, whatever is to be refreshed is on a thread.** -/
theorem invariant_reachable (h : Reachable c) : Invariant c := by
  obtain ⟨c₀, hinit, hreach⟩ := h
  refine invariant_reaches (fun t s s' new others hs hi => ?_) (fun s s' new others he hi => ?_) hreach
    (invariant_initial hinit)
  · exact ⟨owned_step hs hi.owned, coherent_step hs hi.owned hi.coherent,
      request_step hs hi.owned hi.coherent hi.request, report_step hs hi.owned hi.coherent hi.report⟩
  · exact ⟨owned_event he hi.owned, coherent_event he hi.coherent, request_event he hi.request,
      report_event he hi.coherent hi.report⟩

/-- No worker is scheduled and none is about to be: nothing runs, and the watcher has seen every commit. -/
def Quiet (c : Config Shared Thread) : Prop :=
  c.threads = 0 ∧ c.shared.observedGeneration = c.shared.status.generation

/-- **No refresh is lost.** At most one worker is ever scheduled; and when none is scheduled and none is about to be, no
request came after the last attempt started (so long as the counter tells them apart), and the report is current or
the last attempts, which the worker makes before it gives up, have all failed and the collector says so. -/
theorem refresh_notLost (h : Reachable c) :
    count Thread.owns c.threads ≤ 1 ∧
      (Quiet c → c.shared.scheduled = false ∧ (Countable c.shared →
        c.shared.requested = c.shared.lastStart ∧ (c.shared.status.pending = false ∨ Exhausted c.shared))) := by
  obtain ⟨howned, _, hrequest, hreport⟩ := invariant_reachable h
  refine ⟨?_, fun hq => ⟨?_, fun hcount => ⟨?_, ?_⟩⟩⟩
  · rw [howned]
    split <;> decide
  · unfold Owned at howned
    rw [hq.1] at howned
    by_contra hs
    simp [hs] at howned
  · by_contra hn
    obtain ⟨t, ht, _⟩ := hrequest ⟨hcount, hn⟩
    rw [hq.1] at ht
    exact Multiset.notMem_zero t ht
  · by_contra hn
    push Not at hn
    obtain ⟨t, ht, _⟩ := hreport ⟨hcount, by simpa using hn.1, hq.2, hn.2⟩
    rw [hq.1] at ht
    exact Multiset.notMem_zero t ht

/-! ### Runs -/

section Samples

/-- The state after an attempt that failed, after which the store's status could not be read. -/
def failedAttempt (s : Shared) : Shared :=
  { s with
    lastStart := s.requested
    reportDirty := true
    reportRefreshFailures := min (s.reportRefreshFailures + 1) (2 ^ 32 - 1)
    reportFailure := some .status
    attempts := ⟨s.requested, .failed⟩ :: s.attempts }

theorem reaches_attempted {failures : ℕ}
    (h : Reaches collector ⟨(judge { s with lastStart := s.requested } failures s.requested (.error .task) false).1,
      (judge { s with lastStart := s.requested } failures s.requested (.error .task) false).2 ::ₘ others⟩ c) :
    Reaches collector ⟨s, .ready failures ::ₘ others⟩ c :=
  reaches_thread (.start s failures) <| reaches_thread (.attempt _ failures s.requested false (.error .task)) <|
    reaches_thread (.judge _ failures s.requested (.error .task) false) h

/-- An attempt fails, and the worker goes on. -/
theorem reaches_failed {failures : ℕ} (hlimit : failures + 1 ≠ reportRetryLimit)
    (h : Reaches collector ⟨failedAttempt s, .ready (failures + 1) ::ₘ others⟩ c) :
    Reaches collector ⟨s, .ready failures ::ₘ others⟩ c := by
  refine reaches_attempted ?_
  have hjudge : judge { s with lastStart := s.requested } failures s.requested (.error .task) false =
      (failedAttempt s, .starting (failures + 1)) := by
    simp [judge, attemptFailure, Shared.pendingAsRead, Except.toOption, hlimit, failedAttempt]
  rw [hjudge]
  exact reaches_thread (.slept _ failures) h

/-- A collector that has just started over a report that is pending. -/
def started : Shared where
  status := ⟨1, 0⟩
  requested := 0
  scheduled := false
  reportDirty := true
  reportDegraded := true
  reportRefreshFailures := 0
  reportFailure := none
  observedGeneration := 1
  lastStart := 0
  attempts := []

theorem reachable_of_reaches (h : Reaches collector ⟨started, {.scheduling}⟩ c) : Reachable c :=
  ⟨_, ⟨rfl, rfl, rfl, rfl, rfl, .inl rfl⟩, h⟩

/-- The report is refreshed. -/
def refreshed : Shared :=
  { started with
    status := ⟨1, 1⟩
    requested := 1
    reportDirty := false
    reportDegraded := false
    lastStart := 1
    attempts := [⟨1, .completed⟩] }

theorem reachable_refreshed : Reachable ⟨refreshed, 0⟩ := by
  refine reachable_of_reaches ?_
  refine reaches_thread (.request _) (reaches_thread (.spawned _ 1 rfl) (reaches_thread (.debounce _) ?_))
  refine reaches_thread (.debounced _ 1 rfl) (reaches_thread (.start _ 0) ?_)
  refine reaches_thread (.attempt _ 0 1 true (.ok true)) (reaches_thread (.judge _ 0 1 (.ok true) true) ?_)
  refine reaches_thread (.clear _ 1) (reaches_thread (.recheck _ 1) (reaches_ended (.settle _ 1 1 true) ?_))
  exact .refl

/-- Nothing was missed when the report is refreshed. -/
theorem refresh_notLost_refreshed :
    Quiet ⟨refreshed, 0⟩ ∧ refreshed.requested = refreshed.lastStart ∧
      (refreshed.status.pending = false ∨ Exhausted refreshed) :=
  ⟨⟨rfl, rfl⟩, ((refresh_notLost reachable_refreshed).2 ⟨rfl, rfl⟩).2 (by unfold Countable; decide)⟩

/-- The attempts after which the worker gives up, all after the last request. -/
def AllAfterRequest (s : Shared) : Prop :=
  FailedLast reportRetryLimit s.attempts ∧ ∀ a ∈ s.attempts.take reportRetryLimit, s.requested ≤ a.start

theorem retry_ends {epoch : ℕ} (h : counter s.requested = counter epoch) : ThreadStep (.released epoch) s s 0 := by
  have hretry := ThreadStep.retry s epoch
  rwa [if_neg (not_not.mpr h)] at hretry

/-- The last attempt fails, no request came in between, and the worker gives up. -/
theorem reaches_givenUp {failures : ℕ} (hlimit : failures + 1 = reportRetryLimit)
    (h : Reaches collector ⟨{ failedAttempt s with reportDegraded := true, scheduled := false }, others⟩ c) :
    Reaches collector ⟨s, .ready failures ::ₘ others⟩ c := by
  refine reaches_attempted ?_
  have hjudge : judge { s with lastStart := s.requested } failures s.requested (.error .task) false =
      ({ failedAttempt s with reportDegraded := true }, .exhausted s.requested) := by
    simp [judge, attemptFailure, Shared.pendingAsRead, Except.toOption, hlimit, failedAttempt]
  rw [hjudge]
  exact reaches_thread (.cleanedUp _ _ none) (reaches_thread (.release _ _) (reaches_ended (retry_ends rfl) h))

theorem reaches_poll (hwake : (pollReportAuthority s).2 = true)
    (h : Reaches collector ⟨(pollReportAuthority s).1, .scheduling ::ₘ others⟩ c) :
    Reaches collector ⟨s, others⟩ c := by
  have hpoll := CollectorEvent.poll s
  rw [if_pos hwake] at hpoll
  exact reaches_event hpoll h

/-- A commit came after the first of the attempts with which the worker gave up. -/
def givenUp : Shared where
  status := ⟨2, 0⟩
  requested := 3
  scheduled := false
  reportDirty := true
  reportDegraded := true
  reportRefreshFailures := 4
  reportFailure := some .status
  observedGeneration := 2
  lastStart := 3
  attempts := [⟨3, .failed⟩, ⟨3, .failed⟩, ⟨3, .failed⟩, ⟨1, .failed⟩]

theorem reachable_givenUp : Reachable ⟨givenUp, 0⟩ := by
  refine reachable_of_reaches ?_
  refine reaches_thread (.request _) (reaches_thread (.spawned _ 1 rfl) (reaches_thread (.debounce _) ?_))
  refine reaches_thread (.debounced _ 1 rfl) (reaches_failed (by decide) ?_)
  refine reaches_event (.commit _ false none true) (reaches_thread (.request _) (reaches_ended (.refused _ _ rfl) ?_))
  refine reaches_poll rfl (reaches_thread (.request _) (reaches_ended (.refused _ _ rfl) ?_))
  refine reaches_failed (by decide) (reaches_failed (by decide) (reaches_givenUp (by decide) ?_))
  exact .refl

/-- **A request that comes between two attempts is not given all of them**: the worker gives up a report that is
pending, with an attempt from before the last request among those that have failed. -/
theorem not_allAfterRequest_givenUp : ∃ c, Reachable c ∧ Quiet c ∧ c.shared.scheduled = false ∧
    ¬ ((c.shared.status.pending = false ∧ c.shared.requested = c.shared.lastStart) ∨
      (AllAfterRequest c.shared ∧ c.shared.reportDegraded = true)) := by
  refine ⟨_, reachable_givenUp, ⟨rfl, rfl⟩, rfl, fun h => ?_⟩
  cases h with
  | inl h => exact absurd h.1 (by decide)
  | inr h =>
    have hstart := h.1.2 ⟨1, .failed⟩ (by simp [givenUp, reportRetryLimit])
    exact absurd hstart (by decide)

end Samples

end AgentObservability.Collector
