import AgentObservability.Codex.Exports
import AgentObservability.Codex.Ledger

/-!
# The correlation keeps a ledger

The queues and the list of a correlation are the ledger, taken apart by key and kind
(`Represents`): every queue has the open requests of its key in the order of the log, and the
list has the retries. The oldest entry of the log is the front of a queue or of the list, so the
search of `evict_oldest` finds it; and the front of a queue is the oldest request of its key.

## What is proved

`correlation_invariants`: along every run of accepted exports that does not use up the
sequences, the correlation represents the ledger of the run, with what this says of its
size, its order, its evictions, its retries and its completions.
-/

namespace AgentObservability.Codex

open Domain Contracts Foundation Foundation.Json

/-- The correlation is the ledger, taken apart. -/
structure Represents (s : CorrelationState) (L : Ledger) : Prop where
  /-- No queue is empty. -/
  noEmpty : s.pending.NoEmpty
  /-- A queue has the open requests of its key. -/
  queue : ∀ key, s.pending.queue key = L.pending key
  /-- The list has the retries. -/
  completed : s.recentlyCompleted = L.entries.filterMap LedgerEntry.completedOf
  /-- The counter. -/
  nextSequence : s.nextSequence = L.nextSequence

namespace Represents

variable {s : CorrelationState} {L : Ledger} {key : OtlpRequestPairKey} {nowUnixMs : ℕ}

theorem mem_pending {request : PendingOtlpRequest} :
    request ∈ L.pending key ↔ LedgerEntry.pending key request ∈ L.entries := by
  constructor
  · intro h
    obtain ⟨e, he, hof⟩ := List.mem_filterMap.mp h
    cases e with
    | pending k r =>
      simp only [LedgerEntry.pendingOf] at hof
      by_cases hk : k = key
      · rw [if_pos hk] at hof
        cases hof
        rw [← hk]
        exact he
      · rw [if_neg hk] at hof
        cases hof
    | completed retry => cases hof
  · intro h
    exact List.mem_filterMap.mpr ⟨_, h, if_pos rfl⟩

theorem mem_completed (h : Represents s L) {retry : CompletedOfficialRetry} :
    retry ∈ s.recentlyCompleted ↔ LedgerEntry.completed retry ∈ L.entries := by
  rw [h.completed]
  constructor
  · intro hr
    obtain ⟨e, he, hof⟩ := List.mem_filterMap.mp hr
    cases e with
    | pending k r => cases hof
    | completed retry' =>
      cases hof
      exact he
  · intro hr
    exact List.mem_filterMap.mpr ⟨_, hr, rfl⟩

/-! ### The size -/

theorem map_pendingOf (entries : List LedgerEntry) (key : OtlpRequestPairKey) :
    (entries.filterMap (LedgerEntry.pendingOf key)).map (key, ·) =
      (entries.filterMap LedgerEntry.openRequest).filter (·.1 = key) := by
  induction entries with
  | nil => rfl
  | cons e entries ih =>
    cases e with
    | completed retry => exact ih
    | pending k request =>
      rw [List.filterMap_cons, List.filterMap_cons]
      by_cases hk : k = key
      · subst hk
        simp [LedgerEntry.pendingOf, LedgerEntry.openRequest, ih]
      · simp [LedgerEntry.pendingOf, LedgerEntry.openRequest, ih, hk]

theorem flat_perm (h : Represents s L) : s.pending.flat.Perm (L.entries.filterMap LedgerEntry.openRequest) := by
  refine List.perm_iff_count.mpr fun x => ?_
  have hcount : ∀ l : List (OtlpRequestPairKey × PendingOtlpRequest), l.count x = (l.filter (·.1 = x.1)).count x :=
    fun l => (List.count_filter (by simp)).symm
  rw [hcount, hcount (L.entries.filterMap _), OrderedMap.flat_filter, h.queue, ← map_pendingOf]
  rfl

theorem length_entries (entries : List LedgerEntry) : entries.length =
    (entries.filterMap LedgerEntry.openRequest).length + (entries.filterMap LedgerEntry.completedOf).length := by
  induction entries with
  | nil => rfl
  | cons e entries ih =>
    cases e with
    | pending key request =>
      simp only [List.length_cons, List.filterMap_cons, LedgerEntry.openRequest, LedgerEntry.completedOf]
      omega
    | completed retry =>
      simp only [List.length_cons, List.filterMap_cons, LedgerEntry.openRequest, LedgerEntry.completedOf]
      omega

theorem size_eq (h : Represents s L) : s.size = L.entries.length := by
  rw [CorrelationState.size, CorrelationState.pendingLen_eq, h.flat_perm.length_eq, h.completed, length_entries]

/-! ### The operations -/

theorem empty : Represents {} {} where
  noEmpty := OrderedMap.noEmpty_empty
  queue _ := rfl
  completed := rfl
  nextSequence := rfl

/-- A part of the log that is told by a property of the requests and of the retries. -/
theorem filterMap_filter {α : Type} {p : LedgerEntry → Bool} {q : α → Bool} {f : LedgerEntry → Option α}
    (h : ∀ e a, f e = some a → p e = q a) (entries : List LedgerEntry) :
    (entries.filter p).filterMap f = (entries.filterMap f).filter q := by
  induction entries with
  | nil => rfl
  | cons e entries ih =>
    cases hf : f e with
    | none =>
      rw [List.filterMap_cons_none hf, ← ih, List.filter_cons]
      by_cases hp : p e = true
      · rw [if_pos hp, List.filterMap_cons_none hf]
      · rw [if_neg hp]
    | some a =>
      rw [List.filterMap_cons_some hf, List.filter_cons, List.filter_cons, h e a hf]
      by_cases hq : q a = true
      · rw [if_pos hq, if_pos hq, List.filterMap_cons_some hf, ih]
      · rw [if_neg hq, if_neg hq, ih]

theorem expire (h : Represents s L) : Represents (s.expire nowUnixMs) (L.expire nowUnixMs) where
  noEmpty := OrderedMap.noEmpty_retain
  queue key := by
    rw [CorrelationState.expire, OrderedMap.queue_retain, h.queue]
    refine (filterMap_filter (fun e request hof => ?_) L.entries).symm
    cases e with
    | pending k r =>
      simp only [LedgerEntry.pendingOf] at hof
      split at hof
      · cases hof
        rfl
      · cases hof
    | completed retry => cases hof
  completed := by
    rw [CorrelationState.expire, h.completed]
    refine (filterMap_filter (fun e retry hof => ?_) L.entries).symm
    cases e with
    | pending k r => cases hof
    | completed retry' =>
      cases hof
      rfl
  nextSequence := h.nextSequence

theorem finish (h : Represents s L) : Represents s.finishBatch L.finish where
  noEmpty := CorrelationState.noEmpty_finishBatch
  queue key := by
    have hqueue : s.finishBatch.pending.queue key =
        (s.pending.queue key).map fun request => { request with currentRecordIndex := none } := by
      rw [CorrelationState.finishBatch, OrderedMap.queue, OrderedMap.get?_filterMap, OrderedMap.queue]
      cases s.pending.get? key with
      | none => rfl
      | some queue =>
        cases queue with
        | nil => rfl
        | cons request queue => rfl
    rw [hqueue, h.queue, Ledger.pending, Ledger.pending, Ledger.finish, List.filterMap_map, List.map_filterMap]
    refine List.filterMap_congr fun e _ => ?_
    cases e with
    | pending k request =>
      simp only [LedgerEntry.pendingOf, Function.comp_apply, LedgerEntry.finish]
      split
      · rfl
      · rfl
    | completed retry => rfl
  completed := by
    rw [Ledger.finish, List.filterMap_map]
    refine h.completed.trans (List.filterMap_congr fun e _ => ?_)
    cases e with
    | pending k request => rfl
    | completed retry => rfl
  nextSequence := h.nextSequence

theorem mem_fronts (h : Represents s L) {front : Lex (ℕ × OtlpRequestPairKey)} (hfront : front ∈ s.fronts) :
    ∃ key request, LedgerEntry.pending key request ∈ L.entries ∧ front = toLex (request.sequence, key) := by
  obtain ⟨e, he, hmap⟩ := List.mem_filterMap.mp hfront
  obtain ⟨request, hhead, rfl⟩ := Option.map_eq_some_iff.mp hmap
  refine ⟨e.1, request, mem_pending.mp ?_, rfl⟩
  rw [← h.queue, OrderedMap.queue, OrderedMap.get?_eq_some.mpr he]
  exact List.mem_of_mem_head? hhead

theorem front_mem (h : Represents s L) {request : PendingOtlpRequest} {rest : List PendingOtlpRequest}
    (hp : L.pending key = request :: rest) : toLex (request.sequence, key) ∈ s.fronts := by
  have hqueue := (h.queue key).trans hp
  unfold OrderedMap.queue at hqueue
  cases hget : s.pending.get? key with
  | none =>
    rw [hget] at hqueue
    cases hqueue
  | some queue =>
    rw [hget] at hqueue
    obtain rfl : queue = request :: rest := hqueue
    exact List.mem_filterMap.mpr ⟨(key, request :: rest), OrderedMap.get?_eq_some.mp hget, rfl⟩

variable {e : LedgerEntry} {rest : List LedgerEntry} {next : ℕ}

/-- The oldest entry of the log is the front of its queue, and this is the least front. -/
theorem argmin_fronts {request : PendingOtlpRequest} (h : Represents s ⟨.pending key request :: rest, next⟩)
    (hsorted : ∀ e ∈ rest, request.sequence < e.sequence) :
    s.fronts.argmin id = some (toLex (request.sequence, key)) := by
  have hmem : toLex (request.sequence, key) ∈ s.fronts :=
    h.front_mem (show Ledger.pending _ key = request :: rest.filterMap (LedgerEntry.pendingOf key) by
      simp [Ledger.pending, LedgerEntry.pendingOf])
  have hle : ∀ front ∈ s.fronts, toLex (request.sequence, key) ≤ front := by
    intro front hfront
    obtain ⟨k, r, hr, rfl⟩ := h.mem_fronts hfront
    rcases List.mem_cons.mp hr with heq | hr
    · cases heq
      exact le_refl _
    · exact le_of_lt (Prod.Lex.toLex_lt_toLex.mpr (Or.inl (hsorted _ hr)))
  rw [List.argmin_eq_some_iff]
  refine ⟨hmem, hle, fun front hfront hge => ?_⟩
  rw [le_antisymm (hle front hfront) hge]

theorem popped (h : Represents s L) {request : PendingOtlpRequest} {others : List PendingOtlpRequest}
    (hp : L.pending key = request :: others) :
    (s.pending.popFront key).1 = some request ∧ Represents { s with pending := (s.pending.popFront key).2 } (L.take key) := by
  obtain ⟨before, after, hentries, htake, hbefore⟩ := Ledger.pending_eq_cons hp
  have hrest : others = (before ++ after).filterMap (LedgerEntry.pendingOf key) := by
    have hnone : before.filterMap (LedgerEntry.pendingOf key) = [] := List.filterMap_eq_nil_iff.mpr hbefore
    rw [Ledger.pending, hentries, List.filterMap_append, hnone, List.nil_append,
      List.filterMap_cons_some (by simp [LedgerEntry.pendingOf] : _ = some request)] at hp
    rw [List.filterMap_append, hnone, List.nil_append]
    exact (List.cons.inj hp).2.symm
  refine ⟨?_, { noEmpty := h.noEmpty.popFront, queue := fun k => ?_, completed := ?_, nextSequence := h.nextSequence }⟩
  · rw [OrderedMap.popFront, h.queue, hp]
    rfl
  · rw [OrderedMap.queue_popFront, h.queue, h.queue, hp, Ledger.pending, Ledger.pending, htake]
    by_cases hk : k = key
    · rw [if_pos hk, hk, hrest, List.tail_cons]
    · rw [if_neg hk, hentries, List.filterMap_append, List.filterMap_append, List.filterMap_cons_none]
      exact if_neg (Ne.symm hk)
  · rw [htake]
    refine h.completed.trans ?_
    rw [hentries, List.filterMap_append, List.filterMap_append, List.filterMap_cons_none]
    rfl

/-- **The eviction takes the oldest entry of the log.** -/
theorem evictOldest (h : Represents s ⟨e :: rest, next⟩) (hsorted : ∀ x ∈ rest, e.sequence < x.sequence) :
    Represents s.evictOldest ⟨rest, next⟩ := by
  cases e with
  | pending key request =>
    have hpending : Ledger.pending ⟨.pending key request :: rest, next⟩ key =
        request :: rest.filterMap (LedgerEntry.pendingOf key) := by
      simp [Ledger.pending, LedgerEntry.pendingOf]
    have htake : Ledger.take ⟨.pending key request :: rest, next⟩ key = ⟨rest, next⟩ := by
      simp [Ledger.take, LedgerEntry.pendingOf]
    have hpopped := htake ▸ (h.popped hpending).2
    have hevict : s.evictOldest = { s with pending := (s.pending.popFront key).2 } := by
      unfold CorrelationState.evictOldest
      rw [h.argmin_fronts hsorted]
      cases hc : s.recentlyCompleted.zipIdx.argmin (·.1.sequence) with
      | none => rfl
      | some completed =>
        have hmem : completed.1 ∈ s.recentlyCompleted := (List.mem_zipIdx' (List.argmin_mem hc)).2 ▸ List.getElem_mem _
        have hlt : request.sequence < completed.1.sequence := by
          rcases List.mem_cons.mp (h.mem_completed.mp hmem) with heq | hr
          · cases heq
          · exact hsorted _ hr
        show (if completed.1.sequence ≤ request.sequence then _ else _) = _
        rw [if_neg (not_le.mpr hlt)]
        rfl
    rw [hevict]
    exact hpopped
  | completed retry =>
    have hcompleted : s.recentlyCompleted = retry :: rest.filterMap LedgerEntry.completedOf := h.completed
    have hargmin : s.recentlyCompleted.zipIdx.argmin (·.1.sequence) = some (retry, 0) := by
      rw [List.argmin_eq_some_iff, hcompleted, List.zipIdx_cons]
      refine ⟨List.mem_cons_self, fun x hx => ?_, fun x _ _ => by simp⟩
      rcases List.mem_cons.mp hx with rfl | hx
      · exact le_refl _
      · have hmem := List.fst_mem_of_mem_zipIdx hx
        obtain ⟨e, he, hof⟩ := List.mem_filterMap.mp hmem
        have hlt := hsorted e he
        cases e with
        | pending k r => cases hof
        | completed retry' =>
          cases hof
          exact hlt.le
    have hevict : s.evictOldest = { s with recentlyCompleted := s.recentlyCompleted.eraseIdx 0 } := by
      unfold CorrelationState.evictOldest
      rw [hargmin]
      cases hp : s.fronts.argmin id with
      | none => rfl
      | some front =>
        obtain ⟨key, request, hmem, rfl⟩ := h.mem_fronts (List.argmin_mem hp)
        have hlt : retry.sequence < request.sequence := by
          rcases List.mem_cons.mp hmem with heq | hr
          · cases heq
          · exact hsorted _ hr
        show (if retry.sequence ≤ request.sequence then _ else _) = _
        rw [if_pos hlt.le]
    rw [hevict, hcompleted]
    exact { noEmpty := h.noEmpty, queue := h.queue, completed := rfl, nextSequence := h.nextSequence }

/-- **Capacity is enforced by taking the oldest entry.** -/
theorem enforceCapacity {entries : List LedgerEntry} (h : Represents s ⟨entries, next⟩)
    (hsorted : entries.Pairwise fun a b => a.sequence < b.sequence)
    (hlength : entries.length ≤ maxPendingOtlpRequests + 1) :
    Represents s.enforceCapacity ⟨Ledger.trim entries, next⟩ := by
  have hsize : s.size = entries.length := h.size_eq
  unfold Ledger.trim
  by_cases hlong : maxPendingOtlpRequests < entries.length
  · rw [if_pos hlong]
    cases entries with
    | nil => exact absurd hlong (Nat.not_lt_zero _)
    | cons e rest =>
      have hevicted := h.evictOldest (List.pairwise_cons.mp hsorted).1
      have hle : s.evictOldest.size ≤ maxPendingOtlpRequests := by
        rw [hevicted.size_eq]
        exact Nat.le_of_succ_le_succ hlength
      have henforce : s.enforceCapacity = s.evictOldest := by
        rw [List.length_cons] at hsize
        unfold CorrelationState.enforceCapacity
        rw [hsize, CorrelationState.enforceCapacityLoop, if_pos (by rw [hsize]; simpa using hlong)]
        cases rest.length with
        | zero => rfl
        | succ n => rw [CorrelationState.enforceCapacityLoop, if_neg (not_lt.mpr hle)]
      rw [henforce]
      exact hevicted
  · rw [if_neg hlong, CorrelationState.enforceCapacity_of_le (by omega)]
    exact h

/-- One more request, before the capacity is enforced. -/
theorem pushBack (h : Represents s L) (key : OtlpRequestPairKey) (request : PendingOtlpRequest) :
    Represents { s with pending := s.pending.pushBack key request }
      ⟨L.entries ++ [.pending key request], L.nextSequence⟩ where
  noEmpty := h.noEmpty.pushBack
  queue k := by
    rw [OrderedMap.queue_pushBack, h.queue, h.queue, Ledger.pending, Ledger.pending, Ledger.pending,
      List.filterMap_append]
    by_cases hk : k = key
    · rw [if_pos hk, hk]
      simp [LedgerEntry.pendingOf]
    · rw [if_neg hk]
      simp [LedgerEntry.pendingOf, Ne.symm hk]
  completed := by
    rw [List.filterMap_append]
    exact h.completed.trans (List.append_nil _).symm
  nextSequence := h.nextSequence

/-- One more retry, before the capacity is enforced. -/
theorem append (h : Represents s L) (retry : CompletedOfficialRetry) :
    Represents { s with recentlyCompleted := s.recentlyCompleted ++ [retry] }
      ⟨L.entries ++ [.completed retry], L.nextSequence⟩ where
  noEmpty := h.noEmpty
  queue k := by
    rw [Ledger.pending, List.filterMap_append]
    exact (h.queue k).trans (List.append_nil _).symm
  completed := by
    rw [List.filterMap_append, ← h.completed]
    rfl
  nextSequence := h.nextSequence

/-- The next sequence is taken. -/
theorem advance (h : Represents s L) :
    Represents { s with nextSequence := L.nextSequence + 1 } ⟨L.entries, L.nextSequence + 1⟩ :=
  ⟨h.noEmpty, h.queue, h.completed, rfl⟩

theorem push (h : Represents s L) (hL : L.WellFormed) (request : ℕ → PendingOtlpRequest)
    (hseq : ∀ n, (request n).sequence = n) :
    Represents ({ s with nextSequence := s.nextSequence + 1 }.push key (request s.nextSequence))
      (L.add fun sequence => .pending key (request sequence)) := by
  obtain ⟨hsorted, hlength⟩ := hL.extend (LedgerEntry.pending key (request L.nextSequence)) (hseq _)
  rw [h.nextSequence]
  exact (h.advance.pushBack key (request L.nextSequence)).enforceCapacity hsorted hlength

theorem pushCompleted (h : Represents s L) (hL : L.WellFormed) (retry : ℕ → CompletedOfficialRetry)
    (hseq : ∀ n, (retry n).sequence = n) :
    Represents ({ s with nextSequence := s.nextSequence + 1 }.pushCompleted (retry s.nextSequence))
      (L.add fun sequence => .completed (retry sequence)) := by
  obtain ⟨hsorted, hlength⟩ := hL.extend (LedgerEntry.completed (retry L.nextSequence)) (hseq _)
  rw [h.nextSequence]
  exact (h.advance.append (retry L.nextSequence)).enforceCapacity hsorted hlength

theorem containsOfficialRetry (h : Represents s L) (identity : String) :
    s.containsOfficialRetry key identity = L.knows key (some identity) := by
  rw [Bool.eq_iff_iff, CorrelationState.containsOfficialRetry, Bool.or_eq_true, List.any_eq_true, List.any_eq_true,
    Ledger.knows, Option.any_some, List.any_eq_true]
  constructor
  · rintro (⟨request, hmem, hid⟩ | ⟨retry, hmem, hid⟩)
    · rw [h.queue, mem_pending] at hmem
      exact ⟨_, hmem, by simpa [LedgerEntry.key, LedgerEntry.identity] using hid⟩
    · exact ⟨_, h.mem_completed.mp hmem, by simpa [LedgerEntry.key, LedgerEntry.identity] using hid⟩
  · rintro ⟨e, he, hid⟩
    cases e with
    | pending k request =>
      obtain ⟨hkey, hid⟩ : k = key ∧ request.officialRetryIdentity = some identity := of_decide_eq_true hid
      refine Or.inl ⟨request, ?_, by simpa using hid⟩
      rw [h.queue, mem_pending, ← hkey]
      exact he
    | completed retry =>
      exact Or.inr ⟨retry, h.mem_completed.mpr he, by simpa [LedgerEntry.key, LedgerEntry.identity] using hid⟩

end Represents

/-! ### Runs of events -/

namespace CorrelationState

/-- What becomes of a correlation. -/
def step (s : CorrelationState) : CorrelationEvent → CorrelationState
  | .expire nowUnixMs => s.expire nowUnixMs
  | .start key correlationId officialRetryIdentity nowUnixMs index =>
    if officialRetryIdentity.any (s.containsOfficialRetry key) then s
    else s.takeSequence.2.push key
      { correlationId, officialRetryIdentity, insertedAtUnixMs := nowUnixMs, sequence := s.takeSequence.1
        currentRecordIndex := some index }
  | .complete key nowUnixMs =>
    match (s.pending.popFront key).1 with
    | none => { s with pending := (s.pending.popFront key).2 }
    | some request =>
      { s with pending := (s.pending.popFront key).2 }.rememberCompletedOfficialRetry key
        request.officialRetryIdentity nowUnixMs
  | .finish => s.finishBatch

/-- The open request that an event consumes. -/
def consumed (s : CorrelationState) : CorrelationEvent → Option PendingOtlpRequest
  | .complete key _ => (s.pending.popFront key).1
  | _ => none

end CorrelationState

section Runs

variable {s : CorrelationState} {L : Ledger}

theorem Represents.consumed (h : Represents s L) (event : CorrelationEvent) : s.consumed event = L.consumed event := by
  cases event with
  | expire | start | finish => rfl
  | complete key nowUnixMs =>
    show (s.pending.queue key).head? = (L.pending key).head?
    rw [h.queue]

/-- **An event does to the correlation what it does to the ledger**, as long as there is a sequence left. -/
theorem Represents.step (h : Represents s L) (hL : L.WellFormed) {event : CorrelationEvent}
    (hnext : (L.step event).nextSequence < 2 ^ 64 - 1) : Represents (s.step event) (L.step event) := by
  have hle := (Ledger.steps_step L event).next_le
  have htake : ∀ {t : CorrelationState}, t.nextSequence = s.nextSequence →
      t.takeSequence = (t.nextSequence, { t with nextSequence := t.nextSequence + 1 }) := by
    intro t ht
    refine CorrelationState.takeSequence_of_lt ?_
    rw [ht, h.nextSequence]
    omega
  cases event with
  | expire nowUnixMs => exact h.expire
  | finish => exact h.finish
  | start key correlationId identity nowUnixMs index =>
    have hknows : identity.any (s.containsOfficialRetry key) = L.knows key identity := by
      cases identity with
      | none => rfl
      | some identity => exact h.containsOfficialRetry identity
    show Represents (if _ then _ else _) (L.start key correlationId identity nowUnixMs index)
    unfold Ledger.start
    rw [hknows, htake rfl]
    by_cases hk : L.knows key identity = true
    · rw [if_pos hk, if_pos hk]
      exact h
    · rw [if_neg hk, if_neg hk]
      exact h.push hL (fun sequence => ⟨correlationId, identity, nowUnixMs, sequence, some index⟩) fun _ => rfl
  | complete key nowUnixMs =>
    have hconsumed : (s.pending.popFront key).1 = (L.pending key).head? := h.consumed (.complete key nowUnixMs)
    show Represents (match (s.pending.popFront key).1 with | none => _ | some request => _) (L.complete key nowUnixMs)
    unfold Ledger.complete
    rw [hconsumed]
    cases hp : L.pending key with
    | nil =>
      rw [OrderedMap.popFront_none h.noEmpty (hconsumed.trans (by rw [hp]; rfl))]
      exact h
    | cons request rest =>
      obtain ⟨-, hpopped⟩ := h.popped hp
      show Represents (CorrelationState.rememberCompletedOfficialRetry _ key request.officialRetryIdentity nowUnixMs)
        (L.remember key nowUnixMs request)
      unfold CorrelationState.rememberCompletedOfficialRetry Ledger.remember
      cases request.officialRetryIdentity with
      | none => exact hpopped
      | some identity =>
        simp only
        rw [htake (t := { s with pending := (s.pending.popFront key).2 }) rfl]
        exact hpopped.pushCompleted (hL.take key) (fun sequence => ⟨key, identity, nowUnixMs, sequence⟩) fun _ => rfl

namespace CorrelationState

/-- The correlation after events. -/
def after (events : List CorrelationEvent) : CorrelationState := events.foldl step {}

/-- The requests that the completions of a run consume. -/
def consumptions : CorrelationState → List CorrelationEvent → List PendingOtlpRequest
  | _, [] => []
  | s, event :: events => (s.consumed event).toList ++ consumptions (s.step event) events

end CorrelationState

theorem Ledger.nextSequence_le_foldl (events : List CorrelationEvent) :
    ∀ {L : Ledger}, L.nextSequence ≤ (events.foldl Ledger.step L).nextSequence := by
  induction events with
  | nil => exact Nat.le_refl _
  | cons event events ih => exact (Ledger.steps_step _ event).next_le.trans ih

/-- **A run of events does to the correlation what it does to the ledger.** -/
theorem Represents.run {events : List CorrelationEvent} : ∀ {s : CorrelationState} {L : Ledger}, Represents s L →
    L.WellFormed → (events.foldl Ledger.step L).nextSequence < 2 ^ 64 - 1 →
    Represents (events.foldl CorrelationState.step s) (events.foldl Ledger.step L) ∧
      s.consumptions events = L.consumptions events := by
  induction events with
  | nil => exact fun h _ _ => ⟨h, rfl⟩
  | cons event events ih =>
    intro s L h hL hnext
    have hstep := h.step hL ((Ledger.nextSequence_le_foldl events).trans_lt hnext)
    obtain ⟨hrun, hconsumed⟩ := ih hstep (hL.step event) hnext
    refine ⟨hrun, ?_⟩
    rw [CorrelationState.consumptions, Ledger.consumptions, h.consumed, hconsumed]

end Runs

/-! ### The events of an export -/

section Exports

variable [Sha2]

/-- What a record of an export does to the correlation. -/
def HandoffRecord.event (sourceGeneration : String) (nowUnixMs index : ℕ) (record : HandoffRecord) :
    Except AdapterError (Option CorrelationEvent) := do
  let isCompleted ← record.isCompleted
  if ¬ record.isRequestStart ∧ ¬ isCompleted then pure none
  else
    match ← otlpRequestPairKey record.attributes with
    | none => pure none
    | some (conversationId, model) =>
      let key := pairKey (hashOpaqueIdentifier sourceGeneration) (hashOpaqueIdentifier conversationId)
        (hashOpaqueIdentifier model)
      if record.isRequestStart then
        let requestId ← optionalString record.attributes "request_id"
        let officialRetryIdentity := requestId.map hashOpaqueIdentifier
        let correlationId := officialRetryIdentity.getD
          (stableId "id:sha256" ["codex-local-request-v1", sourceGeneration, conversationId, model, record.cursor])
        let success ← optionalBool record.attributes "success"
        if success = some false then pure none
        else pure (some (.start key correlationId officialRetryIdentity nowUnixMs index))
      else pure (some (.complete key nowUnixMs))

/-- The events of the records of an export, from the one with this index. -/
def exportEvents (sourceGeneration : String) (nowUnixMs : ℕ) : ℕ → List HandoffRecord →
    Except AdapterError (List CorrelationEvent)
  | _, [] => .ok []
  | index, record :: records => do
    let event ← record.event sourceGeneration nowUnixMs index
    let events ← exportEvents sourceGeneration nowUnixMs (index + 1) records
    pure (event.toList ++ events)

/-- The request that a pairing completes. -/
def Pairing.consumed : Pairing → Option PendingOtlpRequest
  | .completed pending _ => some pending
  | _ => none

variable {sourceGeneration : String} {nowUnixMs index : ℕ} {record : HandoffRecord} {pairing : Pairing}
  {s t : CorrelationState}

/-- **What `pairRecord` makes of the correlation is the event of the record**, and the request
that it completes is the one that the event consumes. -/
theorem pairRecord_event (h : pairRecord sourceGeneration nowUnixMs index record s = .ok (pairing, t)) :
    ∃ event, record.event sourceGeneration nowUnixMs index = .ok event ∧ t = event.elim s s.step ∧
      pairing.consumed = event.bind s.consumed := by
  obtain ⟨isCompleted, hcompleted, h⟩ := bind_eq_ok.mp h
  unfold HandoffRecord.event
  rw [hcompleted, ok_bind]
  by_cases hother : ¬ record.isRequestStart ∧ ¬ isCompleted
  · rw [if_pos hother] at h ⊢
    cases h
    exact ⟨none, rfl, rfl, rfl⟩
  · rw [if_neg hother] at h ⊢
    obtain ⟨names, hnames, h⟩ := bind_eq_ok.mp h
    rw [hnames, ok_bind]
    cases names with
    | none =>
      cases h
      exact ⟨none, rfl, rfl, rfl⟩
    | some names =>
      obtain ⟨conversationId, model⟩ := names
      simp only at h ⊢
      by_cases hstart : record.isRequestStart = true
      · rw [if_pos hstart] at h ⊢
        obtain ⟨requestId, hrequest, h⟩ := bind_eq_ok.mp h
        obtain ⟨success, hsuccess, h⟩ := bind_eq_ok.mp h
        rw [hrequest, ok_bind, hsuccess, ok_bind]
        by_cases hfailed : success = some false
        · rw [if_pos hfailed] at h ⊢
          cases h
          exact ⟨none, rfl, rfl, rfl⟩
        · rw [if_neg hfailed] at h ⊢
          refine ⟨_, rfl, ?_⟩
          show t = (if _ then s else _) ∧ _
          split at h
          · rename_i hknown
            cases h
            exact ⟨(if_pos hknown).symm, rfl⟩
          · rename_i hknown
            cases h
            exact ⟨(if_neg hknown).symm, rfl⟩
      · rw [if_neg hstart] at h ⊢
        refine ⟨_, rfl, ?_⟩
        unfold pairCompletion at h
        simp only at h
        set key := pairKey (hashOpaqueIdentifier sourceGeneration) (hashOpaqueIdentifier conversationId)
          (hashOpaqueIdentifier model)
        show t = (match (s.pending.popFront key).1 with | none => _ | some request => _) ∧
          pairing.consumed = (s.pending.popFront key).1
        cases hpop : (s.pending.popFront key).1 with
        | none =>
          rw [hpop] at h
          cases h
          exact ⟨rfl, rfl⟩
        | some request =>
          rw [hpop] at h
          obtain ⟨completed, -, h⟩ := bind_eq_ok.mp h
          cases h
          exact ⟨rfl, rfl⟩

omit [Sha2] in
theorem Pairing.length_write (pairing : Pairing) (visited : List HandoffRecord) (record : HandoffRecord) :
    (pairing.write visited record).length = visited.length + 1 := by
  cases pairing with
  | untouched => simp [Pairing.write]
  | started correlationId => simp [Pairing.write]
  | completed pending requestId =>
    unfold Pairing.write
    rw [List.length_append, List.length_singleton]
    split
    · rw [List.length_modify]
    · rfl

theorem correlateFrom_events {records : List HandoffRecord} : ∀ {visited written : List HandoffRecord}
    {s t : CorrelationState}, correlateFrom sourceGeneration nowUnixMs visited records s = .ok (written, t) →
    ∃ events, exportEvents sourceGeneration nowUnixMs visited.length records = .ok events ∧
      t = events.foldl CorrelationState.step s := by
  induction records with
  | nil =>
    intro visited written s t h
    cases h
    exact ⟨[], rfl, rfl⟩
  | cons record records ih =>
    intro visited written s t h
    obtain ⟨⟨pairing, next⟩, hpair, h⟩ := bind_eq_ok.mp h
    obtain ⟨event, hevent, rfl, -⟩ := pairRecord_event hpair
    obtain ⟨events, hevents, rfl⟩ := ih h
    rw [Pairing.length_write] at hevents
    refine ⟨event.toList ++ events, ?_, ?_⟩
    · rw [exportEvents, hevent, ok_bind, hevents]
      rfl
    · cases event with
      | none => rfl
      | some event => rfl

/-- The events of an export, from the expiry at its beginning to its end. -/
def exportedEvents (input : OtlpBody) (sourceGeneration : String) (previousCursor : Option String)
    (firstCursor nowUnixMs : ℕ) : Except AdapterError (List CorrelationEvent) := do
  let root ← ofOption AdapterError.invalidJson input.root
  let reader ← readExport root sourceGeneration previousCursor firstCursor nowUnixMs
  let events ← exportEvents sourceGeneration nowUnixMs 0 reader.records
  pure (.expire nowUnixMs :: (events ++ [.finish]))

/-- An accepted export has events, and the correlation takes them. -/
theorem parseOtlpHttpJsonWithState_events {input : OtlpBody} {previousCursor lastCursor : Option String}
    {firstCursor : ℕ} {batch : AdapterBatch}
    (h : parseOtlpHttpJsonWithState input sourceGeneration previousCursor firstCursor nowUnixMs s =
      .ok (batch, lastCursor, t)) :
    ∃ events, exportedEvents input sourceGeneration previousCursor firstCursor nowUnixMs = .ok events ∧
      t = events.foldl CorrelationState.step s := by
  obtain ⟨_, _, h⟩ := bind_eq_ok.mp h
  obtain ⟨_, _, h⟩ := bind_eq_ok.mp h
  obtain ⟨root, hroot, h⟩ := bind_eq_ok.mp h
  obtain ⟨reader, hread, h⟩ := bind_eq_ok.mp h
  obtain ⟨⟨records, next⟩, hcorrelate, h⟩ := bind_eq_ok.mp h
  obtain ⟨_, _, h⟩ := bind_eq_ok.mp h
  obtain ⟨⟨written, correlated⟩, hloop, hcorrelate⟩ := bind_eq_ok.mp hcorrelate
  cases hcorrelate
  cases h
  obtain ⟨events, hevents, rfl⟩ := correlateFrom_events hloop
  refine ⟨.expire nowUnixMs :: (events ++ [.finish]), ?_, ?_⟩
  · rw [exportedEvents, hroot, ok_bind, hread, ok_bind]
    rw [List.length_nil] at hevents
    rw [hevents]
    rfl
  · rw [List.foldl_cons, List.foldl_append]
    rfl

/-- Runs of accepted exports, of any source generations and at any times, with their events and the correlation that
they come to. -/
inductive ExportRun : List CorrelationEvent → CorrelationState → Prop
  /-- Nothing was exported. -/
  | empty : ExportRun [] {}
  /-- One more export is accepted. -/
  | accepted {events more : List CorrelationEvent} {s t : CorrelationState} {input : OtlpBody}
      {sourceGeneration : String} {previousCursor lastCursor : Option String} {firstCursor nowUnixMs : ℕ}
      {batch : AdapterBatch} : ExportRun events s →
      parseOtlpHttpJsonWithState input sourceGeneration previousCursor firstCursor nowUnixMs s =
        .ok (batch, lastCursor, t) →
      exportedEvents input sourceGeneration previousCursor firstCursor nowUnixMs = .ok more →
      ExportRun (events ++ more) t

/-- The events of a run make its correlation. -/
theorem ExportRun.state_eq {events : List CorrelationEvent} (h : ExportRun events s) :
    s = CorrelationState.after events := by
  induction h with
  | empty => rfl
  | accepted _ hparse hmore ih =>
    obtain ⟨more, hmore', rfl⟩ := parseOtlpHttpJsonWithState_events hparse
    cases hmore.symm.trans hmore'
    rw [CorrelationState.after, List.foldl_append, ih]
    rfl

/-! ### The invariants of a run -/

omit [Sha2] in
/-- What holds of the correlation at every point of a run whose ledger is `L`. -/
structure Correlated (s : CorrelationState) (L : Ledger) : Prop where
  /-- It is the ledger, taken apart. -/
  represents : Represents s L
  /-- Open and remembered requests together are not too many. -/
  size_le : s.pendingLen + s.recentlyCompleted.length ≤ maxPendingOtlpRequests
  /-- Every queue is in the order of the sequences. -/
  queue_sorted : ∀ key, (s.pending.queue key).Pairwise fun a b => a.sequence < b.sequence
  /-- The retries are in the order of the sequences. -/
  completed_sorted : s.recentlyCompleted.Pairwise fun a b => a.sequence < b.sequence
  /-- The sequences of the requests were allocated. -/
  pending_lt : ∀ key, ∀ request ∈ s.pending.queue key, request.sequence < s.nextSequence
  /-- The sequences of the retries were allocated. -/
  completed_lt : ∀ retry ∈ s.recentlyCompleted, retry.sequence < s.nextSequence
  /-- A retry of a key is recognised by one entry at most. -/
  retry_once : ∀ key identity,
    (s.pending.queue key).countP (·.officialRetryIdentity = some identity) +
      s.recentlyCompleted.countP (fun retry => retry.key = key ∧ retry.officialRetryIdentity = identity) ≤ 1

omit [Sha2] in
theorem countP_le_one {entries : List LedgerEntry} (h : entries.Pairwise LedgerEntry.Differ)
    (key : OtlpRequestPairKey) (identity : String) :
    entries.countP (fun e => e.key = key ∧ e.identity = some identity) ≤ 1 := by
  induction entries with
  | nil => exact Nat.zero_le _
  | cons e entries ih =>
    obtain ⟨hfirst, hrest⟩ := List.pairwise_cons.mp h
    rw [List.countP_cons]
    split
    · rename_i he
      obtain ⟨hkey, hid⟩ := of_decide_eq_true he
      have hzero : entries.countP (fun e => e.key = key ∧ e.identity = some identity) = 0 := by
        refine List.countP_eq_zero.mpr fun x hx hsame => ?_
        obtain ⟨hkey', hid'⟩ := of_decide_eq_true hsame
        exact hfirst x hx identity hid hid' (hkey.trans hkey'.symm)
      omega
    · exact ih hrest

omit [Sha2] in
/-- The entries of a key and an identity are the requests of its queue and the retries of the list. -/
theorem countP_entries (entries : List LedgerEntry) (key : OtlpRequestPairKey) (identity : String) :
    (entries.filterMap (LedgerEntry.pendingOf key)).countP (·.officialRetryIdentity = some identity) +
      (entries.filterMap LedgerEntry.completedOf).countP
        (fun retry => retry.key = key ∧ retry.officialRetryIdentity = identity) =
      entries.countP (fun e => e.key = key ∧ e.identity = some identity) := by
  induction entries with
  | nil => rfl
  | cons e entries ih =>
    cases e with
    | pending k request =>
      rw [show (LedgerEntry.pending k request :: entries).filterMap LedgerEntry.completedOf =
        entries.filterMap LedgerEntry.completedOf from rfl, List.countP_cons, ← ih]
      by_cases hk : k = key
      · have hof : LedgerEntry.pendingOf key (.pending k request) = some request := if_pos hk
        rw [List.filterMap_cons_some hof, List.countP_cons]
        simp only [LedgerEntry.key, LedgerEntry.identity, hk, true_and]
        omega
      · have hof : LedgerEntry.pendingOf key (.pending k request) = none := if_neg hk
        rw [List.filterMap_cons_none hof]
        simp only [LedgerEntry.key, hk, false_and, decide_false, Bool.false_eq_true, if_false, Nat.add_zero]
    | completed retry =>
      rw [show (LedgerEntry.completed retry :: entries).filterMap (LedgerEntry.pendingOf key) =
        entries.filterMap (LedgerEntry.pendingOf key) from rfl,
        show (LedgerEntry.completed retry :: entries).filterMap LedgerEntry.completedOf =
        retry :: entries.filterMap LedgerEntry.completedOf from rfl, List.countP_cons, List.countP_cons, ← ih]
      simp only [LedgerEntry.key, LedgerEntry.identity, Option.some.injEq]
      omega

omit [Sha2] in
theorem Represents.correlated {L : Ledger} (h : Represents s L) (hL : L.WellFormed) : Correlated s L where
  represents := h
  size_le := h.size_eq.trans_le hL.length_le
  queue_sorted key := by
    rw [h.queue]
    refine hL.sorted.filterMap _ fun a b hab request hr request' hr' => ?_
    cases a with
    | completed retry => cases hr
    | pending k r =>
      cases b with
      | completed retry => cases hr'
      | pending k' r' =>
        simp only [LedgerEntry.pendingOf, Option.ite_none_right_eq_some, Option.some.injEq] at hr hr'
        rw [← hr.2, ← hr'.2]
        exact hab
  completed_sorted := by
    rw [h.completed]
    refine hL.sorted.filterMap _ fun a b hab retry hr retry' hr' => ?_
    cases a with
    | pending k r => cases hr
    | completed r =>
      cases b with
      | pending k' r' => cases hr'
      | completed r' =>
        cases hr
        cases hr'
        exact hab
  pending_lt key request hr := by
    rw [h.queue, Represents.mem_pending] at hr
    rw [h.nextSequence]
    exact hL.lt_next _ hr
  completed_lt retry hr := by
    rw [h.nextSequence]
    exact hL.lt_next _ (h.mem_completed.mp hr)
  retry_once key identity := by
    rw [h.queue, h.completed]
    exact (countP_entries L.entries key identity).trans_le (countP_le_one hL.differ key identity)

omit [Sha2] in
/-- A correlation with too many entries loses the one with the least sequence, and no other. -/
def EvictsOldest (s : CorrelationState) : Prop :=
  maxPendingOtlpRequests < s.size → ∃ oldest others next, Represents s ⟨oldest :: others, next⟩ ∧
    (∀ e ∈ others, oldest.sequence < e.sequence) ∧ Represents s.enforceCapacity ⟨others, next⟩

omit [Sha2] in
theorem evictsOldest_of_represents {entries : List LedgerEntry} {next : ℕ} (h : Represents s ⟨entries, next⟩)
    (hsorted : entries.Pairwise fun a b => a.sequence < b.sequence)
    (hlength : entries.length ≤ maxPendingOtlpRequests + 1) : EvictsOldest s := by
  intro hlong
  have hsize : s.size = entries.length := h.size_eq
  have htrim := h.enforceCapacity hsorted hlength
  rw [Ledger.trim, if_pos (by omega)] at htrim
  cases entries with
  | nil => exact absurd hlong (by rw [hsize]; exact Nat.not_lt_zero _)
  | cons oldest others => exact ⟨oldest, others, next, h, (List.pairwise_cons.mp hsorted).1, htrim⟩

omit [Sha2] in
/-- What holds along a run of events. -/
structure RunInvariants (events : List CorrelationEvent) : Prop where
  /-- The correlation keeps the ledger at every point. -/
  correlated : ∀ earlier later, events = earlier ++ later →
    Correlated (CorrelationState.after earlier) (Ledger.after earlier)
  /-- One more request evicts the oldest entry, if the correlation is full. -/
  pushed : ∀ earlier later, events = earlier ++ later → ∀ key request,
    request.sequence = (CorrelationState.after earlier).nextSequence →
    EvictsOldest { CorrelationState.after earlier with
      pending := (CorrelationState.after earlier).pending.pushBack key request }
  /-- One more retry evicts the oldest entry, if the correlation is full. -/
  pushedCompleted : ∀ earlier later, events = earlier ++ later → ∀ retry : CompletedOfficialRetry,
    retry.sequence = (CorrelationState.after earlier).nextSequence →
    EvictsOldest { CorrelationState.after earlier with
      recentlyCompleted := (CorrelationState.after earlier).recentlyCompleted ++ [retry] }
  /-- A completion consumes the oldest open request of its key, if there is one. -/
  completes : ∀ earlier later key nowUnixMs, events = earlier ++ .complete key nowUnixMs :: later →
    (CorrelationState.after earlier).consumed (.complete key nowUnixMs) = ((Ledger.after earlier).pending key).head? ∧
    ((Ledger.after earlier).pending key).Pairwise fun a b => a.sequence < b.sequence
  /-- No request is consumed twice. -/
  once : ((CorrelationState.consumptions {} events).map (·.sequence)).Nodup

/-- **The invariants of the correlation.** Along every run of accepted exports, of any length, that allocates fewer than
`2 ^ 64 - 1` sequences. -/
theorem correlation_invariants {events : List CorrelationEvent} (h : ExportRun events s)
    (hnext : (Ledger.after events).nextSequence < 2 ^ 64 - 1) :
    s = CorrelationState.after events ∧ RunInvariants events := by
  have hbefore : ∀ earlier later, events = earlier ++ later →
      Represents (CorrelationState.after earlier) (Ledger.after earlier) := by
    rintro earlier later rfl
    have hle : (Ledger.after earlier).nextSequence ≤ (Ledger.after (earlier ++ later)).nextSequence := by
      rw [Ledger.after, Ledger.after, List.foldl_append]
      exact Ledger.nextSequence_le_foldl later
    exact (Represents.empty.run (Ledger.wellFormed_after []) (hle.trans_lt hnext)).1
  refine ⟨h.state_eq, ?_⟩
  refine { correlated := ?_, pushed := ?_, pushedCompleted := ?_, completes := ?_, once := ?_ }
  · intro earlier later hsplit
    exact (hbefore earlier later hsplit).correlated (Ledger.wellFormed_after earlier)
  · intro earlier later hsplit key request hseq
    have hrepresents := hbefore earlier later hsplit
    obtain ⟨hsorted, hlength⟩ := (Ledger.wellFormed_after earlier).extend (.pending key request)
      (hseq.trans hrepresents.nextSequence)
    exact evictsOldest_of_represents (hrepresents.pushBack key request) hsorted hlength
  · intro earlier later hsplit retry hseq
    have hrepresents := hbefore earlier later hsplit
    obtain ⟨hsorted, hlength⟩ := (Ledger.wellFormed_after earlier).extend (.completed retry)
      (hseq.trans hrepresents.nextSequence)
    exact evictsOldest_of_represents (hrepresents.append retry) hsorted hlength
  · intro earlier later key nowUnixMs hsplit
    have hrepresents := hbefore earlier (.complete key nowUnixMs :: later) hsplit
    refine ⟨hrepresents.consumed (.complete key nowUnixMs), ?_⟩
    rw [← hrepresents.queue]
    exact (hrepresents.correlated (Ledger.wellFormed_after earlier)).queue_sorted key
  · have hrun := (Represents.empty.run (Ledger.wellFormed_after []) hnext).2
    rw [hrun]
    exact Ledger.nodup_consumptions (Ledger.wellFormed_after [])

end Exports

section Samples

local instance ledgerSha2 : Sha2 := ⟨Sha256.hexDigest⟩

theorem correlation_invariants_started : ∃ events s, ExportRun events s ∧ events.length = 3 ∧ s.size = 1 ∧
    s = CorrelationState.after events ∧ RunInvariants events := by
  have hsize : ((parseOtlpHttpJsonWithState (startBody "conversation-1") "generation-1" none 1 1000 {}).toOption.any
      fun result => result.2.2.size = 1) = true := by
    rw [show ledgerSha2 = _ from sha2_eq]
    decide +kernel
  have hlength : ((exportedEvents (startBody "conversation-1") "generation-1" none 1 1000).toOption.any
      fun events => events.length = 3 ∧ (Ledger.after events).nextSequence < 2 ^ 64 - 1) = true := by
    rw [show ledgerSha2 = _ from sha2_eq]
    decide +kernel
  cases hparse : parseOtlpHttpJsonWithState (startBody "conversation-1") "generation-1" none 1 1000 {} with
  | error e =>
    rw [hparse] at hsize
    cases hsize
  | ok result =>
    cases hevents : exportedEvents (startBody "conversation-1") "generation-1" none 1 1000 with
    | error e =>
      rw [hevents] at hlength
      cases hlength
    | ok events =>
      obtain ⟨batch, lastCursor, s⟩ := result
      rw [hparse] at hsize
      rw [hevents] at hlength
      obtain ⟨hthree, hsequence⟩ := of_decide_eq_true hlength
      have hrun : ExportRun events s := .accepted .empty hparse hevents
      exact ⟨events, s, hrun, hthree, of_decide_eq_true hsize, correlation_invariants hrun hsequence⟩

end Samples

end AgentObservability.Codex
