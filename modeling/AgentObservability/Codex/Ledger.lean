import AgentObservability.Codex.Correlation
import Mathlib.Data.List.Pairwise

/-!
# The ledger of a correlation

What the correlation of requests is for: one log of entries in the order of their
sequences, of requests that are open and of retries that are remembered. An entry
leaves the log when it has expired, when it is the oldest of a log that is too long,
or, for a request, when a completion of its key finds no older one of the key.

The ledger counts its sequences without a limit, and knows nothing of queues. In it
the invariants are plain (`Ledger.WellFormed`): every operation takes a part of the
log and adds at most one entry at its end.
-/

namespace AgentObservability.Codex

open Foundation

/-- An entry of the ledger. -/
inductive LedgerEntry where
  /-- An open request. -/
  | pending (key : OtlpRequestPairKey) (request : PendingOtlpRequest)
  /-- A completed request whose retry is recognised. -/
  | completed (retry : CompletedOfficialRetry)
  deriving DecidableEq

namespace LedgerEntry

/-- The sequence of an entry. -/
def sequence : LedgerEntry → ℕ
  | pending _ request => request.sequence
  | completed retry => retry.sequence

/-- The key of an entry. -/
def key : LedgerEntry → OtlpRequestPairKey
  | pending key _ => key
  | completed retry => retry.key

/-- The identity by which a retry is recognised. -/
def identity : LedgerEntry → Option String
  | pending _ request => request.officialRetryIdentity
  | completed retry => some retry.officialRetryIdentity

/-- When the entry was made. -/
def atUnixMs : LedgerEntry → ℕ
  | pending _ request => request.insertedAtUnixMs
  | completed retry => retry.completedAtUnixMs

/-- The request of an entry of the key. -/
def pendingOf (k : OtlpRequestPairKey) : LedgerEntry → Option PendingOtlpRequest
  | pending key request => if key = k then some request else none
  | completed _ => none

/-- The retry of an entry. -/
def completedOf : LedgerEntry → Option CompletedOfficialRetry
  | pending _ _ => none
  | completed retry => some retry

/-- The request of an entry, with its key. -/
def openRequest : LedgerEntry → Option (OtlpRequestPairKey × PendingOtlpRequest)
  | pending key request => some (key, request)
  | completed _ => none

/-- The request of an entry belongs to no record of an export any more. -/
def finish : LedgerEntry → LedgerEntry
  | pending key request => pending key { request with currentRecordIndex := none }
  | completed retry => completed retry

/-- A retry of one of two entries is not taken for one of the other. -/
def Differ (a b : LedgerEntry) : Prop := ∀ id, a.identity = some id → b.identity = some id → a.key ≠ b.key

theorem Differ.symm {a b : LedgerEntry} (h : a.Differ b) : b.Differ a :=
  fun id hb ha hkey => h id ha hb hkey.symm

end LedgerEntry

/-- The entries in the order of their sequences, and the next sequence. -/
structure Ledger where
  /-- The entries. -/
  entries : List LedgerEntry := []
  /-- How many sequences were allocated. -/
  nextSequence : ℕ := 0
  deriving DecidableEq

namespace Ledger

variable (L : Ledger)

/-- The entries that have not expired. -/
def expire (nowUnixMs : ℕ) : Ledger :=
  { L with entries := L.entries.filter fun e => CorrelationState.fresh nowUnixMs e.atUnixMs }

/-- A log that is too long loses its oldest entry. -/
def trim (entries : List LedgerEntry) : List LedgerEntry :=
  if maxPendingOtlpRequests < entries.length then entries.tail else entries

/-- One more entry, with the next sequence. -/
def add (entry : ℕ → LedgerEntry) : Ledger where
  entries := trim (L.entries ++ [entry L.nextSequence])
  nextSequence := L.nextSequence + 1

/-- A retry that the ledger recognises. -/
def knows (key : OtlpRequestPairKey) (identity : Option String) : Bool :=
  identity.any fun id => L.entries.any fun e => e.key = key ∧ e.identity = some id

/-- The open requests of a key, the oldest first. -/
def pending (key : OtlpRequestPairKey) : List PendingOtlpRequest := L.entries.filterMap (LedgerEntry.pendingOf key)

/-- The log without the oldest open request of the key. -/
def take (key : OtlpRequestPairKey) : Ledger :=
  { L with entries := L.entries.eraseP fun e => (e.pendingOf key).isSome }

/-- The ledger is in order. -/
structure WellFormed : Prop where
  /-- The sequences increase. -/
  sorted : L.entries.Pairwise fun a b => a.sequence < b.sequence
  /-- They were allocated. -/
  lt_next : ∀ e ∈ L.entries, e.sequence < L.nextSequence
  /-- The log is not too long. -/
  length_le : L.entries.length ≤ maxPendingOtlpRequests
  /-- No retry is recognised twice. -/
  differ : L.entries.Pairwise LedgerEntry.Differ

variable {L}

theorem trim_sublist (entries : List LedgerEntry) : (trim entries).Sublist entries := by
  unfold trim
  split
  · exact List.tail_sublist entries
  · exact List.Sublist.refl entries

theorem length_trim_le {entries : List LedgerEntry} (h : entries.length ≤ maxPendingOtlpRequests + 1) :
    (trim entries).length ≤ maxPendingOtlpRequests := by
  unfold trim
  split
  · rw [List.length_tail]
    omega
  · omega

/-- A part of the log is in order. -/
theorem WellFormed.sublist (h : L.WellFormed) {entries : List LedgerEntry} (hs : entries.Sublist L.entries) :
    WellFormed { L with entries } where
  sorted := h.sorted.sublist hs
  lt_next e he := h.lt_next e (hs.subset he)
  length_le := hs.length_le.trans h.length_le
  differ := h.differ.sublist hs

/-- The log with one more entry is in order, and at most one entry too long. -/
theorem WellFormed.extend (h : L.WellFormed) (entry : LedgerEntry) (hseq : entry.sequence = L.nextSequence) :
    (L.entries ++ [entry]).Pairwise (fun a b => a.sequence < b.sequence) ∧
      (L.entries ++ [entry]).length ≤ maxPendingOtlpRequests + 1 := by
  refine ⟨List.pairwise_append.mpr ⟨h.sorted, List.pairwise_singleton _ _, fun a ha b hb => ?_⟩, ?_⟩
  · rw [List.mem_singleton.mp hb, hseq]
    exact h.lt_next a ha
  · rw [List.length_append]
    exact Nat.succ_le_succ h.length_le

/-- One more entry, which no retry confuses with another. -/
theorem WellFormed.add (h : L.WellFormed) {entry : ℕ → LedgerEntry}
    (hseq : (entry L.nextSequence).sequence = L.nextSequence)
    (hdiffer : ∀ e ∈ L.entries, e.Differ (entry L.nextSequence)) : (L.add entry).WellFormed := by
  have hs := trim_sublist (L.entries ++ [entry L.nextSequence])
  obtain ⟨hsorted, hlength⟩ := h.extend (entry L.nextSequence) hseq
  refine { sorted := hsorted.sublist hs, lt_next := fun e he => ?_, length_le := length_trim_le hlength
           differ := List.Pairwise.sublist hs ?_ }
  · rcases List.mem_append.mp (hs.subset he) with he | he
    · exact Nat.lt_succ_of_lt (h.lt_next e he)
    · rw [List.mem_singleton.mp he, hseq]
      exact Nat.lt_succ_self _
  · refine List.pairwise_append.mpr ⟨h.differ, List.pairwise_singleton _ _, fun a ha b hb => ?_⟩
    rw [List.mem_singleton.mp hb]
    exact hdiffer a ha

theorem WellFormed.expire (h : L.WellFormed) (nowUnixMs : ℕ) : (L.expire nowUnixMs).WellFormed :=
  h.sublist List.filter_sublist

theorem WellFormed.take (h : L.WellFormed) (key : OtlpRequestPairKey) : (L.take key).WellFormed :=
  h.sublist List.eraseP_sublist

/-- The oldest open request of a key, and the log around it. -/
theorem pending_eq_cons {key : OtlpRequestPairKey} {request : PendingOtlpRequest} {rest : List PendingOtlpRequest}
    (h : L.pending key = request :: rest) : ∃ before after, L.entries = before ++ .pending key request :: after ∧
      (L.take key).entries = before ++ after ∧ ∀ e ∈ before, e.pendingOf key = none := by
  obtain ⟨before, e, after, hsplit, hbefore, he, -⟩ := List.filterMap_eq_cons_iff.mp h
  have hentry : e = .pending key request := by
    cases e with
    | pending k r =>
      simp only [LedgerEntry.pendingOf] at he
      split at he
      · rename_i hk
        cases he
        rw [hk]
      · cases he
    | completed retry => cases he
  subst hentry
  refine ⟨before, after, hsplit, ?_, hbefore⟩
  show L.entries.eraseP _ = _
  rw [hsplit, List.eraseP_append_right _ fun b hb => by simp [hbefore b hb]]
  rw [List.eraseP_cons_of_pos (by rw [he]; rfl)]

end Ledger

/-! ### What happens to a correlation -/

/-- What happens to a correlation. -/
inductive CorrelationEvent where
  /-- An export begins at this time. -/
  | expire (nowUnixMs : ℕ)
  /-- A request starts that did not fail. -/
  | start (key : OtlpRequestPairKey) (correlationId : String) (officialRetryIdentity : Option String)
    (nowUnixMs index : ℕ)
  /-- A response of the key is completed. -/
  | complete (key : OtlpRequestPairKey) (nowUnixMs : ℕ)
  /-- The export ends. -/
  | finish
  deriving DecidableEq

namespace Ledger

variable (L : Ledger)

/-- A request starts: it is added, unless it is a retry that the ledger recognises. -/
def start (key : OtlpRequestPairKey) (correlationId : String) (officialRetryIdentity : Option String)
    (nowUnixMs index : ℕ) : Ledger :=
  if L.knows key officialRetryIdentity then L
  else L.add fun sequence => .pending key
    { correlationId, officialRetryIdentity, insertedAtUnixMs := nowUnixMs, sequence, currentRecordIndex := some index }

/-- An open request is completed: it leaves the log, and its retry is remembered if it has an identity. -/
def remember (key : OtlpRequestPairKey) (nowUnixMs : ℕ) (request : PendingOtlpRequest) : Ledger :=
  match request.officialRetryIdentity with
  | none => L.take key
  | some officialRetryIdentity => (L.take key).add fun sequence => .completed
      { key, officialRetryIdentity, completedAtUnixMs := nowUnixMs, sequence }

/-- A response of the key is completed. -/
def complete (key : OtlpRequestPairKey) (nowUnixMs : ℕ) : Ledger :=
  match (L.pending key).head? with
  | none => L
  | some request => L.remember key nowUnixMs request

/-- The requests belong to no record of an export any more. -/
def finish : Ledger := { L with entries := L.entries.map LedgerEntry.finish }

/-- What becomes of the ledger. -/
def step : CorrelationEvent → Ledger
  | .expire nowUnixMs => L.expire nowUnixMs
  | .start key correlationId officialRetryIdentity nowUnixMs index =>
    L.start key correlationId officialRetryIdentity nowUnixMs index
  | .complete key nowUnixMs => L.complete key nowUnixMs
  | .finish => L.finish

/-- The open request that an event consumes: for a completion, the oldest one of its key. -/
def consumed : CorrelationEvent → Option PendingOtlpRequest
  | .complete key _ => (L.pending key).head?
  | _ => none

/-- The ledger after events. -/
def after (events : List CorrelationEvent) : Ledger := events.foldl step {}

variable {L} {event : CorrelationEvent} {key : OtlpRequestPairKey} {correlationId : String} {identity : Option String}
  {nowUnixMs index : ℕ} {request : PendingOtlpRequest}

theorem knows_eq_false (h : L.knows key identity = false) :
    ∀ e ∈ L.entries, ∀ id, e.identity = some id → identity = some id → e.key ≠ key := by
  rintro e he id hid rfl hkey
  have hany : L.knows key (some id) = true := List.any_eq_true.mpr ⟨e, he, by simp [hkey, hid]⟩
  rw [h] at hany
  cases hany

/-! ### Events keep the ledger in order -/

theorem WellFormed.start (h : L.WellFormed) : (L.start key correlationId identity nowUnixMs index).WellFormed := by
  unfold Ledger.start
  by_cases hknows : L.knows key identity = true
  · rw [if_pos hknows]
    exact h
  · rw [if_neg hknows]
    exact h.add rfl fun e he id hid hid' => knows_eq_false (Bool.eq_false_iff.mpr hknows) e he id hid hid'

theorem WellFormed.complete (h : L.WellFormed) : (L.complete key nowUnixMs).WellFormed := by
  unfold Ledger.complete remember
  cases hpending : L.pending key with
  | nil => exact h
  | cons request rest =>
    obtain ⟨before, after, hentries, htake, -⟩ := pending_eq_cons hpending
    simp only [List.head?_cons]
    cases hidentity : request.officialRetryIdentity with
    | none => exact h.take key
    | some identity =>
      refine (h.take key).add rfl fun e he id hid hid' => ?_
      -- The completed retry has the key and the identity of the request it replaces.
      have hdiffer := h.differ
      rw [hentries, List.perm_middle.pairwise_iff fun {_ _} => LedgerEntry.Differ.symm] at hdiffer
      rw [htake] at he
      exact ((List.pairwise_cons.mp hdiffer).1 e he).symm id hid (hidentity.trans hid')

theorem WellFormed.finish (h : L.WellFormed) : L.finish.WellFormed := by
  have hkept : ∀ e : LedgerEntry, e.finish.sequence = e.sequence ∧ e.finish.key = e.key ∧
      e.finish.identity = e.identity := by
    intro e
    cases e with
    | pending key request => exact ⟨rfl, rfl, rfl⟩
    | completed retry => exact ⟨rfl, rfl, rfl⟩
  refine { sorted := ?_, lt_next := fun e he => ?_, length_le := ?_, differ := ?_ }
  · refine List.pairwise_map.mpr (h.sorted.imp fun {a b} hab => ?_)
    rw [(hkept a).1, (hkept b).1]
    exact hab
  · obtain ⟨e, hmem, rfl⟩ := List.mem_map.mp he
    rw [(hkept e).1]
    exact h.lt_next e hmem
  · exact (List.length_map _).trans_le h.length_le
  · refine List.pairwise_map.mpr (h.differ.imp fun {a b} hab => ?_)
    simp only [LedgerEntry.Differ, (hkept a).2, (hkept b).2]
    exact hab

/-- **Every event keeps the ledger in order.** -/
theorem WellFormed.step (h : L.WellFormed) (event : CorrelationEvent) : (L.step event).WellFormed := by
  cases event with
  | expire nowUnixMs => exact h.expire nowUnixMs
  | start key correlationId identity nowUnixMs index => exact h.start
  | complete key nowUnixMs => exact h.complete
  | finish => exact h.finish

theorem wellFormed_after (events : List CorrelationEvent) : (after events).WellFormed := by
  have hrun : ∀ (events : List CorrelationEvent) {L : Ledger}, L.WellFormed →
      (events.foldl Ledger.step L).WellFormed := by
    intro events
    induction events with
    | nil => exact id
    | cons event events ih => exact fun h => ih (h.step event)
  exact hrun events { sorted := List.Pairwise.nil, lt_next := nofun, length_le := Nat.zero_le _
                      differ := List.Pairwise.nil }

/-! ### No request is consumed twice -/

/-- What an event makes of the entries: a part of them stays, and the next sequence may be added. -/
structure Steps (L M : Ledger) : Prop where
  /-- The sequences are never reused. -/
  next_le : L.nextSequence ≤ M.nextSequence
  /-- An entry was there before, or has a new sequence. -/
  mem : ∀ e ∈ M.entries, (∃ e' ∈ L.entries, e'.sequence = e.sequence) ∨
    L.nextSequence ≤ e.sequence ∧ e.sequence < M.nextSequence

theorem Steps.of_sublist {entries : List LedgerEntry} (h : entries.Sublist L.entries) :
    Steps L { L with entries } where
  next_le := Nat.le_refl _
  mem e he := Or.inl ⟨e, h.subset he, rfl⟩

theorem Steps.of_add {M : Ledger} {entry : ℕ → LedgerEntry} (h : M.entries.Sublist L.entries)
    (hnext : M.nextSequence = L.nextSequence) (hseq : (entry M.nextSequence).sequence = M.nextSequence) :
    Steps L (M.add entry) where
  next_le := hnext ▸ Nat.le_succ _
  mem e he := by
    rcases List.mem_append.mp ((trim_sublist _).subset he) with he | he
    · exact Or.inl ⟨e, h.subset he, rfl⟩
    · rw [List.mem_singleton.mp he, hseq]
      exact Or.inr ⟨hnext.ge, Nat.lt_succ_self _⟩

theorem steps_step (L : Ledger) (event : CorrelationEvent) : Steps L (L.step event) := by
  cases event with
  | expire nowUnixMs => exact Steps.of_sublist List.filter_sublist
  | start key correlationId identity nowUnixMs index =>
    show Steps L (L.start key correlationId identity nowUnixMs index)
    unfold start
    by_cases hknows : L.knows key identity = true
    · rw [if_pos hknows]
      exact Steps.of_sublist (List.Sublist.refl _)
    · rw [if_neg hknows]
      exact Steps.of_add (List.Sublist.refl _) rfl rfl
  | complete key nowUnixMs =>
    show Steps L (L.complete key nowUnixMs)
    unfold complete remember
    cases (L.pending key).head? with
    | none => exact Steps.of_sublist (List.Sublist.refl _)
    | some request =>
      simp only
      cases request.officialRetryIdentity with
      | none => exact Steps.of_sublist List.eraseP_sublist
      | some identity => exact Steps.of_add (M := L.take key) List.eraseP_sublist rfl rfl
  | finish =>
    refine ⟨Nat.le_refl _, fun e he => ?_⟩
    obtain ⟨e, hmem, rfl⟩ := List.mem_map.mp he
    refine Or.inl ⟨e, hmem, ?_⟩
    cases e with
    | pending key request => rfl
    | completed retry => rfl

/-- The requests that the completions of a run consume, with their keys. -/
def consumptions : Ledger → List CorrelationEvent → List PendingOtlpRequest
  | _, [] => []
  | L, event :: events => (L.consumed event).toList ++ consumptions (L.step event) events

/-- A consumed request leaves the log. -/
theorem consumed_leaves (h : L.WellFormed) (hc : L.consumed event = some request) :
    (∃ e ∈ L.entries, e.sequence = request.sequence) ∧ ∀ e ∈ (L.step event).entries, e.sequence ≠ request.sequence := by
  cases event with
  | expire | start | finish => cases hc
  | complete key nowUnixMs =>
    obtain ⟨rest, hpending⟩ := List.head?_eq_some_iff.mp hc
    obtain ⟨before, after, hentries, htake, -⟩ := pending_eq_cons hpending
    have hmem : LedgerEntry.pending key request ∈ L.entries := by
      rw [hentries]
      simp
    have hlt := h.lt_next _ hmem
    have hne : ∀ e ∈ (L.take key).entries, e.sequence ≠ request.sequence := by
      intro e he
      have hsorted := h.sorted
      rw [hentries] at hsorted
      rw [htake] at he
      obtain ⟨-, hafter, hbefore⟩ := List.pairwise_append.mp hsorted
      rcases List.mem_append.mp he with he | he
      · exact ne_of_lt (hbefore e he _ List.mem_cons_self)
      · exact ne_of_gt ((List.pairwise_cons.mp hafter).1 e he)
    refine ⟨⟨_, hmem, rfl⟩, fun e he => ?_⟩
    replace he : e ∈ (L.complete key nowUnixMs).entries := he
    unfold complete remember at he
    replace hc : (L.pending key).head? = some request := hc
    rw [hc] at he
    cases hidentity : request.officialRetryIdentity with
    | none =>
      simp only [hidentity] at he
      exact hne e he
    | some identity =>
      simp only [hidentity] at he
      rcases List.mem_append.mp ((trim_sublist _).subset he) with he | he
      · exact hne e he
      · rw [List.mem_singleton.mp he]
        exact ne_of_gt hlt

/-- What is consumed later is in the log, or has not started. -/
theorem consumptions_mem {events : List CorrelationEvent} : ∀ {L : Ledger}, L.WellFormed →
    ∀ r ∈ consumptions L events, (∃ e ∈ L.entries, e.sequence = r.sequence) ∨ L.nextSequence ≤ r.sequence := by
  induction events with
  | nil => intro L _ r hr; cases hr
  | cons event events ih =>
    intro L h r hr
    rcases List.mem_append.mp hr with hr | hr
    · exact Or.inl (consumed_leaves h (Option.mem_toList.mp hr)).1
    · have hsteps := steps_step L event
      rcases ih (h.step event) r hr with ⟨e, he, hseq⟩ | hle
      · rcases hsteps.mem e he with ⟨e', he', hseq'⟩ | ⟨hle, -⟩
        · exact Or.inl ⟨e', he', hseq'.trans hseq⟩
        · exact Or.inr (hseq ▸ hle)
      · exact Or.inr (hsteps.next_le.trans hle)

/-- **No request is consumed twice.** -/
theorem nodup_consumptions {events : List CorrelationEvent} : ∀ {L : Ledger}, L.WellFormed →
    ((consumptions L events).map (·.sequence)).Nodup := by
  induction events with
  | nil => exact fun _ => List.nodup_nil
  | cons event events ih =>
    intro L h
    unfold consumptions
    cases hc : L.consumed event with
    | none => exact ih (h.step event)
    | some request =>
      refine List.nodup_cons.mpr ⟨fun hmem => ?_, ih (h.step event)⟩
      obtain ⟨r, hr, hseq⟩ := List.mem_map.mp hmem
      obtain ⟨⟨e, he, hreq⟩, hleaves⟩ := consumed_leaves h hc
      rcases consumptions_mem (h.step event) r hr with ⟨e', he', hseq'⟩ | hle
      · exact hleaves e' he' (hseq'.trans hseq)
      · have hlt := h.lt_next e he
        have hnext := (steps_step L event).next_le
        rw [hreq] at hlt
        exact absurd (hlt.trans_le (hnext.trans hle)) (by rw [hseq]; exact lt_irrefl _)

end Ledger

end AgentObservability.Codex
