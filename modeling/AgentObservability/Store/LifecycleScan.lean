import AgentObservability.Store.Maintenance
import AgentObservability.Foundation.RoundRobin

/-!
# The window of a lifecycle pass

`lifecycle_candidates` reads a bounded window of traces over three tiers, each in a circle of its
own, and begins every time with the tier after the one that supplied the last row.

## What is proved

`lifecycleScan_fair`: over a population of traces that does not change, a call offers no trace
twice, at most three times the limit, of which at most the limit are due; and with `n` traces in
the largest tier every trace of every tier is offered within `3 * n` calls, whatever the cutoffs
and the limits of the calls are.

A tier that a call does not reach waits for fewer tiers afterwards (`wait`), and a tier that it
reaches moves on in its circle by one row at least, so `3 * unread + wait` falls with every call.
-/

namespace AgentObservability.Store

open Domain Contracts Foundation

/-! ### The circle of a tier -/

section Tiers

variable {db : Db} {tier : Tier} {cursor : String} {limit : ℕ}

/-- The population of a scan: every trace has an identity and a timestamp. -/
structure Population (db : Db) : Prop where
  /-- No identity is empty: it is a trace id or a digest. -/
  named : ∀ tier, ∀ row ∈ tierRows db tier, row.identity ≠ ""
  /-- Every timestamp can be read. -/
  timed : ∀ tier, ∀ row ∈ tierRows db tier, row.latest ≠ ⊥

/-- The traces of a tier have distinct identities. -/
theorem nodup_tierRows (db : Db) (tier : Tier) : ((tierRows db tier).map (·.identity)).Nodup := by
  cases tier with
  | hot =>
    rw [tierRows, List.map_map]
    exact List.pairwise_map.mpr db.hotTraceIndex.distinct
  | warm =>
    rw [tierRows, List.map_map]
    exact List.pairwise_map.mpr db.warmTraces.distinct
  | cold =>
    rw [tierRows, List.map_map]
    exact List.pairwise_map.mpr db.coldTraces.distinct

/-- The circle of a tier. -/
def tierCycle (db : Db) (tier : Tier) (cursor : String) : List WindowRow :=
  cycle (fun row : WindowRow => row.identity) cursor (tierRows db tier)

theorem mem_tierCycle {row : WindowRow} : row ∈ tierCycle db tier cursor ↔ row ∈ tierRows db tier :=
  (cycle_perm _ _).mem_iff

/-- **A window is the beginning of the circle.** -/
theorem queryTierWindow_eq (hnamed : ∀ row ∈ tierRows db tier, row.identity ≠ "") :
    queryTierWindow db tier cursor limit = (tierCycle db tier cursor).take limit := by
  have hrange : ∀ n after, queryTierRange db tier cursor n after =
      (sortByKey (fun row : WindowRow => row.identity)
        ((tierRows db tier).filter fun row => if after then cursor < row.identity else row.identity ≤ cursor)).take n :=
    fun _ _ => rfl
  simp only [queryTierWindow, hrange, if_true, tierCycle, cycle, List.take_append, List.length_take]
  by_cases hwrap : 0 < limit - min limit (sortByKey (fun row : WindowRow => row.identity)
      ((tierRows db tier).filter fun row => cursor < row.identity)).length ∧ cursor ≠ ""
  · rw [if_pos hwrap]
    congr 2
    omega
  · rw [if_neg hwrap]
    by_cases hcursor : cursor = ""
    · -- A scan that has not begun has nothing behind it.
      have hnone : (tierRows db tier).filter (fun row => decide (row.identity ≤ cursor)) = [] := by
        refine List.filter_eq_nil_iff.mpr fun row hrow hle => hnamed row hrow ?_
        rw [hcursor] at hle
        exact le_antisymm (of_decide_eq_true hle) (not_lt.mp fun hlt => List.not_lt_nil _ (String.lt_iff_toList_lt.mp hlt))
      rw [hnone]
      exact ((congrArg _ List.take_nil).trans (List.append_nil _)).symm
    · have hfull : limit - (sortByKey (fun row : WindowRow => row.identity)
          ((tierRows db tier).filter fun row => cursor < row.identity)).length = 0 := by
        by_contra hpos
        exact hwrap ⟨by omega, hcursor⟩
      rw [hfull, List.take_zero, List.append_nil]

end Tiers

/-! ### The loop over a window -/

/-- `next_tier`. -/
def Tier.next : Tier → ℕ
  | .hot => 1
  | .warm => 2
  | .cold => 0

section Window

variable {cutoffs : Cutoffs} {tier : Tier} {rows : List WindowRow} {scan scan' : WindowScan}

theorem nextTier_past (cursor : LifecycleCursor) (key : String) (tier : Tier) :
    (cursor.past key tier).nextTier = tier.next := by
  cases tier <;> rfl

theorem at_past_self (cursor : LifecycleCursor) (key : String) (tier : Tier) : (cursor.past key tier).at tier = key := by
  cases tier <;> rfl

theorem at_past_of_ne (cursor : LifecycleCursor) (key : String) {tier t : Tier} (h : t ≠ tier) :
    (cursor.past key tier).at t = cursor.at t := by
  cases tier <;> cases t <;> first | rfl | exact absurd rfl h

/-- A candidate is due. -/
def Candidate.due (cutoffs : Cutoffs) (candidate : Candidate) : Bool := (transitionFor candidate cutoffs).isSome

/-- What a candidate is offered as. -/
def Candidate.trace (candidate : Candidate) : Tier × String := (candidate.tier, candidate.identity)

/-- What the loop over a window makes of the rows that it reads. -/
structure Reads (cutoffs : Cutoffs) (tier : Tier) (rows : List WindowRow) (scan scan' : WindowScan)
    (read : List WindowRow) (offered : List Candidate) : Prop where
  /-- It reads the first rows. -/
  begins : read <+: rows
  /-- It offers them. -/
  candidates : scan'.candidates = scan.candidates ++ offered
  /-- It offers nothing else. -/
  traces : offered.map Candidate.trace = read.map fun row => (tier, row.identity)
  /-- The cursor of the tier moves. -/
  position : scan'.cursor.at tier = advance (fun row : WindowRow => row.identity) (scan.cursor.at tier) read
  /-- The other cursors stay. -/
  others : ∀ t, t ≠ tier → scan'.cursor.at t = scan.cursor.at t
  /-- The next scan begins with the next tier. -/
  next : read ≠ [] → scan'.cursor.nextTier = tier.next
  /-- Reading nothing changes nothing. -/
  idle : read = [] → scan'.cursor = scan.cursor
  /-- The last candidate has the cursor. -/
  last : ∀ c, offered.getLast? = some c → c.cursorAfter = scan'.cursor
  /-- The budget pays for what is due. -/
  budget : scan'.remaining + offered.countP (Candidate.due cutoffs) = scan.remaining

/-- It may read nothing. -/
theorem Reads.nothing (cutoffs : Cutoffs) (tier : Tier) (rows : List WindowRow) (scan : WindowScan) :
    Reads cutoffs tier rows scan scan [] [] where
  begins := List.nil_prefix
  candidates := (List.append_nil _).symm
  traces := rfl
  position := rfl
  others _ _ := rfl
  next h := absurd rfl h
  idle _ := rfl
  last := nofun
  budget := rfl

/-- The candidate of a row. -/
def rowCandidate (tier : Tier) (cursor : LifecycleCursor) (row : WindowRow) (latest : ℕ) : Candidate :=
  { tier, identity := row.identity, latestObservedAt := latest, unresolved := row.unresolved
    cursorAfter := cursor.past row.identity tier }

/-- The scan after a row. -/
def scanRow (cutoffs : Cutoffs) (tier : Tier) (scan : WindowScan) (row : WindowRow) (latest : ℕ) : WindowScan where
  cursor := scan.cursor.past row.identity tier
  candidates := scan.candidates ++ [rowCandidate tier scan.cursor row latest]
  remaining := if (rowCandidate tier scan.cursor row latest).due cutoffs then scan.remaining - 1 else scan.remaining

theorem scanWindow_cons (cutoffs : Cutoffs) (tier : Tier) (rows : List WindowRow) (scan : WindowScan) {row : WindowRow}
    {latest : ℕ} (hlatest : row.latest = WithBot.some latest) :
    scanWindow cutoffs tier (row :: rows) scan =
      if (scanRow cutoffs tier scan row latest).remaining = 0 then .ok (scanRow cutoffs tier scan row latest)
      else scanWindow cutoffs tier rows (scanRow cutoffs tier scan row latest) := by
  rw [scanWindow, hlatest]
  rfl

/-- A row and what is read after it. -/
theorem Reads.cons {row : WindowRow} {latest : ℕ} {read : List WindowRow} {offered : List Candidate}
    (hpos : 0 < scan.remaining) (h : Reads cutoffs tier rows (scanRow cutoffs tier scan row latest) scan' read offered) :
    Reads cutoffs tier (row :: rows) scan scan' (row :: read)
      (rowCandidate tier scan.cursor row latest :: offered) where
  begins := List.cons_prefix_cons.mpr ⟨rfl, h.begins⟩
  candidates := h.candidates.trans (List.append_assoc _ _ _)
  traces := congrArg _ h.traces
  position := by
    rw [h.position, advance_cons]
    exact congrArg (fun key => advance _ key read) (at_past_self _ _ _)
  others t ht := (h.others t ht).trans (at_past_of_ne _ _ ht)
  next _ := by
    by_cases hread : read = []
    · rw [h.idle hread]
      exact nextTier_past _ _ _
    · exact h.next hread
  idle hnil := absurd hnil (List.cons_ne_nil _ _)
  last c hc := by
    cases offered with
    | nil =>
      have hread : read = [] := List.map_eq_nil_iff.mp h.traces.symm
      rw [h.idle hread, ← Option.some.inj hc]
      rfl
    | cons c' offered =>
      rw [List.getLast?_cons_cons] at hc
      exact h.last c hc
  budget := by
    have hbudget := h.budget
    rw [List.countP_cons]
    by_cases hdue : (rowCandidate tier scan.cursor row latest).due cutoffs = true
    · rw [scanRow, if_pos hdue] at hbudget
      rw [if_pos hdue]
      simp only at hbudget
      omega
    · rw [scanRow, if_neg hdue] at hbudget
      rw [if_neg hdue]
      exact hbudget

/-- **The loop over a window reads its first rows, and one at least.** -/
theorem scanWindow_ok (cutoffs : Cutoffs) (tier : Tier) : ∀ (rows : List WindowRow) (scan : WindowScan),
    (∀ row ∈ rows, row.latest ≠ ⊥) → 0 < scan.remaining →
    ∃ scan' read offered, scanWindow cutoffs tier rows scan = .ok scan' ∧
      Reads cutoffs tier rows scan scan' read offered ∧ (rows ≠ [] → read ≠ []) := by
  intro rows
  induction rows with
  | nil => exact fun scan _ _ => ⟨scan, [], [], rfl, Reads.nothing cutoffs tier [] scan, fun h => absurd rfl h⟩
  | cons row rows ih =>
    intro scan htimed hpos
    obtain ⟨latest, hlatest⟩ := WithBot.ne_bot_iff_exists.mp (htimed row List.mem_cons_self)
    rw [scanWindow_cons cutoffs tier rows scan hlatest.symm]
    by_cases hspent : (scanRow cutoffs tier scan row latest).remaining = 0
    · rw [if_pos hspent]
      exact ⟨_, [row], _, rfl, Reads.cons hpos (Reads.nothing cutoffs tier rows _), fun _ => List.cons_ne_nil _ _⟩
    · rw [if_neg hspent]
      obtain ⟨scan', read, offered, hscan, hreads, -⟩ :=
        ih _ (fun r hr => htimed r (List.mem_cons_of_mem row hr)) (Nat.pos_of_ne_zero hspent)
      exact ⟨scan', row :: read, _, hscan, hreads.cons hpos, fun _ => List.cons_ne_nil _ _⟩

end Window

/-! ### The loop over the tiers -/

section Round

variable {db : Db} {cutoffs : Cutoffs} {tier : Tier} {tiers : List Tier} {scan scan' scan₁ : WindowScan}
  {offered later : List Candidate}

/-- A tier is served, or the scan stops at a tier before it. -/
structure Serves (db : Db) (tiers : List Tier) (scan scan' : WindowScan) (offered : List Candidate) (tier : Tier)
    (read : List WindowRow) : Prop where
  /-- It reads the beginning of the circle. -/
  begins : read <+: tierCycle db tier (scan.cursor.at tier)
  /-- The cursor of the tier moves. -/
  position : scan'.cursor.at tier = advance (fun row : WindowRow => row.identity) (scan.cursor.at tier) read
  /-- What is read is offered. -/
  offers : ∀ row ∈ read, ∃ c ∈ offered, c.trace = (tier, row.identity)
  /-- A tier that is not served is next sooner. -/
  progress : (tierRows db tier ≠ [] → read ≠ []) ∨ ∃ t, [t, tier].Sublist tiers ∧ scan'.cursor.nextTier = t.next

/-- What the loop over the tiers makes of a scan. -/
structure Scans (db : Db) (cutoffs : Cutoffs) (tiers : List Tier) (scan scan' : WindowScan) (offered : List Candidate) :
    Prop where
  /-- It offers more candidates. -/
  candidates : scan'.candidates = scan.candidates ++ offered
  /-- Each tier is served or waits. -/
  serves : ∀ tier ∈ tiers, ∃ read, Serves db tiers scan scan' offered tier read
  /-- The cursors of the other tiers stay. -/
  others : ∀ t, t ∉ tiers → scan'.cursor.at t = scan.cursor.at t
  /-- No trace is offered twice. -/
  fresh : (offered.map Candidate.trace).Nodup
  /-- A candidate is a trace of one of the tiers. -/
  within : ∀ c ∈ offered, c.tier ∈ tiers ∧ ∃ row ∈ tierRows db c.tier, row.identity = c.identity
  /-- Each tier supplies what the budget allows at most. -/
  length : offered.length ≤ tiers.length * scan.remaining
  /-- The budget pays for what is due. -/
  budget : scan'.remaining + offered.countP (Candidate.due cutoffs) = scan.remaining
  /-- The last candidate has the cursor. -/
  last : ∀ c, offered.getLast? = some c → c.cursorAfter = scan'.cursor
  /-- Offering nothing changes nothing. -/
  idle : offered = [] → scan'.cursor = scan.cursor
  /-- The next tier is a tier. -/
  valid : scan.cursor.nextTier ≤ 2 → scan'.cursor.nextTier ≤ 2

/-- Without tiers nothing is offered. -/
theorem Scans.none (db : Db) (cutoffs : Cutoffs) (scan : WindowScan) : Scans db cutoffs [] scan scan [] where
  candidates := (List.append_nil _).symm
  serves := nofun
  others _ _ := rfl
  fresh := List.nodup_nil
  within := nofun
  length := Nat.zero_le _
  budget := rfl
  last := nofun
  idle _ := rfl
  valid h := h

/-- The window of a tier and what the tiers after it make of what it leaves. -/
theorem Scans.cons {read : List WindowRow} {rest : List Tier} (htier : tier ∉ tiers)
    (hrest : rest = tiers ∨ (rest = [] ∧ read ≠ []))
    (hfirst : Reads cutoffs tier ((tierCycle db tier (scan.cursor.at tier)).take scan.remaining) scan scan₁ read offered)
    (hread : tierRows db tier ≠ [] → read ≠ [])
    (hthen : Scans db cutoffs rest scan₁ scan' later) :
    Scans db cutoffs (tier :: tiers) scan scan' (offered ++ later) := by
  have hsub : rest ⊆ tiers := by
    rcases hrest with rfl | ⟨rfl, -⟩
    · exact fun _ h => h
    · exact nofun
  have hbegins : read <+: tierCycle db tier (scan.cursor.at tier) := hfirst.begins.trans (List.take_prefix _ _)
  have hnodup : (read.map fun row => (tier, row.identity)).Nodup := by
    have hkeys : ((tierCycle db tier (scan.cursor.at tier)).map (·.identity)).Nodup :=
      (((cycle_perm _ _).map _).nodup_iff).mpr (nodup_tierRows db tier)
    have hpairs := (hkeys.sublist (hbegins.sublist.map _)).map (f := Prod.mk tier) fun a b h => (Prod.mk.inj h).2
    rwa [List.map_map] at hpairs
  have htraces : ∀ c ∈ offered, ∃ row ∈ read, c.trace = (tier, row.identity) := by
    intro c hc
    have hmem : c.trace ∈ read.map fun row => (tier, row.identity) := hfirst.traces ▸ List.mem_map_of_mem hc
    obtain ⟨row, hrow, heq⟩ := List.mem_map.mp hmem
    exact ⟨row, hrow, heq.symm⟩
  refine { candidates := ?_, serves := fun t ht => ?_, others := fun t ht => ?_, fresh := ?_, within := fun c hc => ?_
           length := ?_, budget := ?_, last := fun c hc => ?_, idle := fun hnil => ?_, valid := fun hvalid => ?_ }
  · rw [hthen.candidates, hfirst.candidates, List.append_assoc]
  · rcases List.mem_cons.mp ht with rfl | ht
    · refine ⟨read, hbegins, ?_, fun row hrow => ?_, .inl hread⟩
      · rw [hthen.others t fun h => htier (hsub h), hfirst.position]
      · have hmem : (t, row.identity) ∈ offered.map Candidate.trace :=
          hfirst.traces.symm ▸ List.mem_map_of_mem hrow
        obtain ⟨c, hc, heq⟩ := List.mem_map.mp hmem
        exact ⟨c, List.mem_append_left _ hc, heq⟩
    · have hother : scan₁.cursor.at t = scan.cursor.at t := hfirst.others t fun h => htier (h ▸ ht)
      rcases hrest with rfl | ⟨rfl, hsome⟩
      · obtain ⟨read', hserves⟩ := hthen.serves t ht
        refine ⟨read', hother ▸ hserves.begins, hother ▸ hserves.position, fun row hrow => ?_, ?_⟩
        · obtain ⟨c, hc, heq⟩ := hserves.offers row hrow
          exact ⟨c, List.mem_append_right _ hc, heq⟩
        · exact hserves.progress.imp_right fun ⟨t', hsublist, hnext⟩ => ⟨t', hsublist.cons tier, hnext⟩
      · -- The budget was spent: the next scan begins after this tier.
        have hstop : later = [] := by
          refine List.eq_nil_iff_forall_not_mem.mpr fun c hc => ?_
          exact absurd (hthen.within c hc).1 List.not_mem_nil
        refine ⟨[], List.nil_prefix, ?_, nofun, .inr ⟨tier, ?_, ?_⟩⟩
        · rw [hthen.others t List.not_mem_nil, hother, advance_nil]
        · exact List.Sublist.cons_cons tier (List.singleton_sublist.mpr ht)
        · rw [hthen.idle hstop, hfirst.next hsome]
  · obtain ⟨hne, ht⟩ := not_or.mp (fun h => ht (List.mem_cons.mpr h))
    rw [hthen.others t fun h => ht (hsub h), hfirst.others t hne]
  · rw [List.map_append]
    refine List.Nodup.append (hfirst.traces ▸ hnodup) hthen.fresh fun x hx hx' => ?_
    obtain ⟨c, hc, rfl⟩ := List.mem_map.mp hx
    obtain ⟨c', hc', heq⟩ := List.mem_map.mp hx'
    obtain ⟨row, -, htrace⟩ := htraces c hc
    rw [htrace] at heq
    exact htier ((Prod.mk.inj heq).1 ▸ hsub (hthen.within c' hc').1)
  · rcases List.mem_append.mp hc with hc | hc
    · obtain ⟨row, hrow, htrace⟩ := htraces c hc
      obtain ⟨hct, hci⟩ := Prod.mk.inj htrace
      rw [hct, hci]
      exact ⟨List.mem_cons_self, row, mem_tierCycle.mp (hbegins.subset hrow), rfl⟩
    · exact ⟨List.mem_cons_of_mem tier (hsub (hthen.within c hc).1), (hthen.within c hc).2⟩
  · have hlength : offered.length ≤ scan.remaining := by
      have heq : offered.length = read.length := by simpa using congrArg List.length hfirst.traces
      rw [heq]
      exact hfirst.begins.length_le.trans (List.length_take_le _ _)
    have hbudget := hfirst.budget
    have hmore : later.length ≤ tiers.length * scan.remaining := by
      refine hthen.length.trans (Nat.mul_le_mul ?_ (by omega))
      rcases hrest with rfl | ⟨rfl, -⟩
      · exact le_rfl
      · exact Nat.zero_le _
    rw [List.length_append, List.length_cons, Nat.succ_mul]
    omega
  · rw [List.countP_append]
    have h₁ := hfirst.budget
    have h₂ := hthen.budget
    omega
  · by_cases hlater : later = []
    · subst hlater
      rw [List.append_nil] at hc
      rw [hthen.idle rfl]
      exact hfirst.last c hc
    · rw [List.getLast?_append_of_ne_nil _ hlater] at hc
      exact hthen.last c hc
  · obtain ⟨hoffered, hlater⟩ := List.append_eq_nil_iff.mp hnil
    subst hoffered hlater
    rw [hthen.idle rfl]
    exact hfirst.idle (List.map_eq_nil_iff.mp hfirst.traces.symm)
  · apply hthen.valid
    by_cases hnil : read = []
    · rwa [hfirst.idle hnil]
    · rw [hfirst.next hnil]
      cases tier <;> decide

/-- **The loop serves its tiers in their order until the budget is spent.** -/
theorem scanTiers_ok (h : Population db) (cutoffs : Cutoffs) : ∀ (tiers : List Tier) (scan : WindowScan), tiers.Nodup →
    0 < scan.remaining →
    ∃ scan' offered, scanTiers db cutoffs tiers scan = .ok scan' ∧ Scans db cutoffs tiers scan scan' offered := by
  intro tiers
  induction tiers with
  | nil => exact fun scan _ _ => ⟨scan, [], rfl, Scans.none db cutoffs scan⟩
  | cons tier tiers ih =>
    intro scan hnodup hpos
    obtain ⟨htier, htiers⟩ := List.nodup_cons.mp hnodup
    obtain ⟨scan₁, read, offered, hscan, hfirst, hread⟩ := scanWindow_ok cutoffs tier
      (queryTierWindow db tier (scan.cursor.at tier) scan.remaining) scan (fun row hrow => by
        rw [queryTierWindow_eq (h.named tier)] at hrow
        exact h.timed tier row (mem_tierCycle.mp (List.mem_of_mem_take hrow))) hpos
    rw [queryTierWindow_eq (h.named tier)] at hfirst hread
    have hserved : tierRows db tier ≠ [] → read ≠ [] := by
      intro hne
      apply hread
      rw [Ne, List.take_eq_nil_iff]
      rintro (hzero | hempty)
      · omega
      · exact hne (List.nil_perm.mp (hempty ▸ cycle_perm _ _))
    rw [scanTiers, if_neg hpos.ne', hscan, ok_bind]
    by_cases hspent : scan₁.remaining = 0
    · have hsome : read ≠ [] := by
        rintro rfl
        have hnone : offered = [] := List.map_eq_nil_iff.mp hfirst.traces
        have hbudget := hfirst.budget
        rw [hnone, List.countP_nil] at hbudget
        omega
      refine ⟨scan₁, offered ++ [], ?_, ?_⟩
      · cases tiers with
        | nil => rfl
        | cons t tiers => rw [scanTiers, if_pos hspent]
      · exact Scans.cons htier (.inr ⟨rfl, hsome⟩) hfirst hserved (Scans.none db cutoffs scan₁)
    · obtain ⟨scan', later, hscan', hthen⟩ := ih scan₁ htiers (Nat.pos_of_ne_zero hspent)
      exact ⟨scan', offered ++ later, hscan', Scans.cons htier (.inl rfl) hfirst hserved hthen⟩

end Round

/-! ### Calls -/

section Calls

variable {db : Db} {cutoffs : Cutoffs} {limit : ℕ}

/-- How many tiers come before a tier. -/
def wait (nextTier : ℕ) (tier : Tier) : ℕ :=
  match tierOrder nextTier with
  | .ok tiers => tiers.idxOf tier
  | .error _ => 0

/-- The cursor that a call leaves: the next one resumes from the last candidate. -/
def resumeScan (db : Db) (candidates : List Candidate) : Db :=
  match candidates.getLast? with
  | none => db
  | some candidate => updateScanCursor db candidate.cursorAfter

/-- Calls one after the other, each with its cutoffs and its limit. -/
def lifecycleCalls : Db → List (Cutoffs × ℕ) → Except StoreError (List Candidate)
  | _, [] => .ok []
  | db, (cutoffs, limit) :: calls => do
    let candidates ← lifecycleCandidates db cutoffs limit
    let later ← lifecycleCalls (resumeScan db candidates) calls
    pure (candidates ++ later)

/-- The cursor of a scan names a tier. -/
def ValidCursor (db : Db) : Prop := db.lifecycleScanCursor.nextTier ≤ 2

theorem tierOrder_ok {n : ℕ} (h : n ≤ 2) : ∃ tiers, tierOrder n = .ok tiers ∧ tiers.Nodup ∧ tiers.length = 3 ∧
    ∀ tier, tier ∈ tiers := by
  match n, h with
  | 0, _ => exact ⟨_, rfl, by decide, rfl, fun tier => by cases tier <;> decide⟩
  | 1, _ => exact ⟨_, rfl, by decide, rfl, fun tier => by cases tier <;> decide⟩
  | 2, _ => exact ⟨_, rfl, by decide, rfl, fun tier => by cases tier <;> decide⟩

theorem wait_le (n : ℕ) (tier : Tier) : wait n tier ≤ 2 := by
  match n with
  | 0 => cases tier <;> decide
  | 1 => cases tier <;> decide
  | 2 => cases tier <;> decide
  | n + 3 => exact Nat.zero_le _

/-- After a tier before it a tier is next sooner. -/
theorem wait_next {n : ℕ} (h : n ≤ 2) {tiers : List Tier} (htiers : tierOrder n = .ok tiers) {t tier : Tier}
    (hsublist : [t, tier].Sublist tiers) : wait t.next tier < wait n tier := by
  match n, h with
  | 0, _ =>
    obtain rfl := Except.ok.inj htiers
    revert hsublist
    cases t <;> cases tier <;> decide
  | 1, _ =>
    obtain rfl := Except.ok.inj htiers
    revert hsublist
    cases t <;> cases tier <;> decide
  | 2, _ =>
    obtain rfl := Except.ok.inj htiers
    revert hsublist
    cases t <;> cases tier <;> decide

theorem Population.resume (h : Population db) (candidates : List Candidate) : Population (resumeScan db candidates) := by
  unfold resumeScan
  split
  · exact h
  · exact ⟨h.named, h.timed⟩

theorem tierRows_resume (db : Db) (candidates : List Candidate) (tier : Tier) :
    tierRows (resumeScan db candidates) tier = tierRows db tier := by
  unfold resumeScan
  split
  · rfl
  · cases tier <;> rfl

/-- **A call scans the three tiers from its cursor and leaves the cursor that it reached.** -/
theorem lifecycleCandidates_ok (h : Population db) (hcursor : ValidCursor db) (cutoffs : Cutoffs) (hlimit : 1 ≤ limit) :
    ∃ candidates tiers scan, lifecycleCandidates db cutoffs limit = .ok candidates ∧
      tierOrder db.lifecycleScanCursor.nextTier = .ok tiers ∧ tiers.length = 3 ∧ (∀ tier, tier ∈ tiers) ∧
      Scans db cutoffs tiers ⟨db.lifecycleScanCursor, [], limit⟩ scan candidates ∧
      (resumeScan db candidates).lifecycleScanCursor = scan.cursor := by
  obtain ⟨tiers, horder, hnodup, hlength, hall⟩ := tierOrder_ok hcursor
  obtain ⟨scan, offered, hscan, hscans⟩ :=
    scanTiers_ok h cutoffs tiers ⟨db.lifecycleScanCursor, [], limit⟩ hnodup hlimit
  refine ⟨offered, tiers, scan, ?_, horder, hlength, hall, hscans, ?_⟩
  · rw [lifecycleCandidates, horder, ok_bind, hscan, ok_bind, hscans.candidates]
    rfl
  · unfold resumeScan
    cases hlast : offered.getLast? with
    | none => exact (hscans.idle (List.getLast?_eq_none_iff.mp hlast)).symm
    | some candidate => exact hscans.last candidate hlast

/-- A trace of a tier is offered. -/
def Offered (candidates : List Candidate) (tier : Tier) (row : WindowRow) : Prop :=
  ∃ c ∈ candidates, c.trace = (tier, row.identity)

/-- **Calls offer what is unread of a tier.** The induction is on the calls: with every call fewer traces of the tier are
unread, or fewer tiers come before it. -/
theorem lifecycleCalls_ok {tier : Tier} : ∀ (calls : List (Cutoffs × ℕ)) {db : Db} {seen : WindowRow → Prop} {n : ℕ},
    Population db → ValidCursor db → (∀ call ∈ calls, 1 ≤ call.2) →
    Unread (fun row : WindowRow => row.identity) (tierRows db tier) (db.lifecycleScanCursor.at tier) seen n →
    3 * n + wait db.lifecycleScanCursor.nextTier tier ≤ calls.length + 2 →
    ∃ candidates, lifecycleCalls db calls = .ok candidates ∧
      ∀ row ∈ tierRows db tier, seen row ∨ Offered candidates tier row := by
  intro calls
  induction calls with
  | nil =>
    intro db seen n h _ _ hunread hn
    have hzero : n = 0 := by
      rw [List.length_nil] at hn
      omega
    subst hzero
    exact ⟨[], rfl, fun row hrow => .inl (hunread.exhausted hrow)⟩
  | cons call calls ih =>
    intro db seen n h hcursor hlimits hunread hn
    obtain ⟨cutoffs, limit⟩ := call
    obtain ⟨candidates, tiers, scan, hcall, horder, -, hall, hscans, hresume⟩ :=
      lifecycleCandidates_ok h hcursor cutoffs (hlimits (cutoffs, limit) List.mem_cons_self)
    obtain ⟨read, hserves⟩ := hscans.serves tier (hall tier)
    have hafter : Unread (fun row : WindowRow => row.identity) (tierRows (resumeScan db candidates) tier)
        ((resumeScan db candidates).lifecycleScanCursor.at tier) (fun row => seen row ∨ Offered candidates tier row)
        (n - read.length) := by
      rw [tierRows_resume, hresume, hserves.position]
      exact hunread.serve (nodup_tierRows db tier) hserves.begins (fun _ => .inl)
        fun row hrow => .inr (hserves.offers row hrow)
    have hless : 3 * (n - read.length) + wait (resumeScan db candidates).lifecycleScanCursor.nextTier tier ≤
        calls.length + 2 := by
      have hwait := wait_le (resumeScan db candidates).lifecycleScanCursor.nextTier tier
      rw [List.length_cons] at hn
      cases n with
      | zero => omega
      | succ n =>
        rcases hserves.progress with hserved | ⟨t, hsublist, hnext⟩
        · have hrows : tierRows db tier ≠ [] := by
            intro hnil
            have := hunread.le_length
            rw [hnil, List.length_nil] at this
            omega
          have hsome := List.length_pos_of_ne_nil (hserved hrows)
          omega
        · have hsooner := wait_next hcursor horder hsublist
          rw [hresume, hnext] at hwait ⊢
          omega
    obtain ⟨later, hlater, hoffered⟩ := ih (h.resume candidates) (show _ ≤ 2 by rw [hresume]; exact hscans.valid hcursor)
      (fun call hc => hlimits call (List.mem_cons_of_mem _ hc)) hafter hless
    refine ⟨candidates ++ later, ?_, fun row hrow => ?_⟩
    · rw [lifecycleCalls, hcall, ok_bind, hlater, ok_bind]
      rfl
    · rw [tierRows_resume] at hoffered
      rcases hoffered row hrow with (hseen | ⟨c, hc, htrace⟩) | ⟨c, hc, htrace⟩
      · exact .inl hseen
      · exact .inr ⟨c, List.mem_append_left _ hc, htrace⟩
      · exact .inr ⟨c, List.mem_append_right _ hc, htrace⟩

/-- The number of traces in the largest tier. -/
def largestTier (db : Db) : ℕ :=
  max (tierRows db .hot).length (max (tierRows db .warm).length (tierRows db .cold).length)

theorem length_le_largestTier (db : Db) (tier : Tier) : (tierRows db tier).length ≤ largestTier db := by
  unfold largestTier
  cases tier <;> omega

/-- What a call guarantees. -/
structure FairCall (db : Db) (cutoffs : Cutoffs) (limit : ℕ) (candidates : List Candidate) : Prop where
  /-- No trace is offered twice. -/
  fresh : (candidates.map Candidate.trace).Nodup
  /-- Every candidate is a trace of its tier. -/
  real : ∀ c ∈ candidates, ∃ row ∈ tierRows db c.tier, row.identity = c.identity
  /-- The candidates are bounded. -/
  length : candidates.length ≤ 3 * limit
  /-- The candidates that are due are bounded. -/
  due : candidates.countP (Candidate.due cutoffs) ≤ limit

/-- **The scan of a lifecycle pass is fair.** -/
theorem lifecycleScan_fair (db : Db) (h : Population db) (hcursor : ValidCursor db) :
    (∀ cutoffs limit, 1 ≤ limit → ∃ candidates,
      lifecycleCandidates db cutoffs limit = .ok candidates ∧ FairCall db cutoffs limit candidates) ∧
    ∀ calls : List (Cutoffs × ℕ), (∀ call ∈ calls, 1 ≤ call.2) → 3 * largestTier db ≤ calls.length →
      ∃ candidates, lifecycleCalls db calls = .ok candidates ∧
        ∀ tier, ∀ row ∈ tierRows db tier, Offered candidates tier row := by
  constructor
  · intro cutoffs limit hlimit
    obtain ⟨candidates, tiers, scan, hcall, -, hlength, -, hscans, -⟩ := lifecycleCandidates_ok h hcursor cutoffs hlimit
    refine ⟨candidates, hcall, hscans.fresh, fun c hc => (hscans.within c hc).2, hlength ▸ hscans.length, ?_⟩
    have hbudget := hscans.budget
    simp only at hbudget
    omega
  · intro calls hlimits hcalls
    have htier : ∀ tier, ∃ candidates, lifecycleCalls db calls = .ok candidates ∧
        ∀ row ∈ tierRows db tier, False ∨ Offered candidates tier row := by
      intro tier
      refine lifecycleCalls_ok calls h hcursor hlimits (unread_all _ _ _) ?_
      have hlargest := length_le_largestTier db tier
      have hwait := wait_le db.lifecycleScanCursor.nextTier tier
      omega
    obtain ⟨candidates, hrun, -⟩ := htier .hot
    refine ⟨candidates, hrun, fun tier row hrow => ?_⟩
    obtain ⟨candidates', hrun', hoffered⟩ := htier tier
    rw [Except.ok.inj (hrun.symm.trans hrun')]
    exact (hoffered row hrow).resolve_left id

/-- A population of two hot traces, the first of them pinned by an open link, and of a warm one. -/
def pinnedTraces : Db where
  __ := Db.empty
  hotTraceIndex := ⟨[⟨"pinned", (5 : ℕ), true, 1, 600, true⟩, ⟨"ready", (7 : ℕ), false, 1, 600, true⟩], by decide⟩
  warmTraces := ⟨[⟨"id:sha256:0a", 3, 9⟩], by decide⟩

theorem population_pinnedTraces : Population pinnedTraces where
  named tier row hrow := by
    cases tier with
    | hot =>
      have hcases : row = ⟨"pinned", (5 : ℕ), true⟩ ∨ row = ⟨"ready", (7 : ℕ), false⟩ := by
        simpa [tierRows, pinnedTraces] using hrow
      rcases hcases with rfl | rfl <;> decide
    | warm =>
      have hrow' : row = ⟨"id:sha256:0a", (3 : ℕ), false⟩ := by simpa [tierRows, pinnedTraces] using hrow
      rw [hrow']
      decide
    | cold => exact absurd hrow List.not_mem_nil
  timed tier row hrow := by
    cases tier with
    | hot =>
      have hcases : row = ⟨"pinned", (5 : ℕ), true⟩ ∨ row = ⟨"ready", (7 : ℕ), false⟩ := by
        simpa [tierRows, pinnedTraces] using hrow
      rcases hcases with rfl | rfl <;> exact WithBot.coe_ne_bot
    | warm =>
      have hrow' : row = ⟨"id:sha256:0a", (3 : ℕ), false⟩ := by simpa [tierRows, pinnedTraces] using hrow
      rw [hrow']
      exact WithBot.coe_ne_bot
    | cold => exact absurd hrow List.not_mem_nil

/-- Six calls of one trace each offer all of them. -/
theorem lifecycleScan_fair_pinnedTraces : ∃ candidates,
    lifecycleCalls pinnedTraces (List.replicate 6 (⟨10, 10, 0⟩, 1)) = .ok candidates ∧
      ∀ tier, ∀ row ∈ tierRows pinnedTraces tier, Offered candidates tier row :=
  (lifecycleScan_fair pinnedTraces population_pinnedTraces (show 0 ≤ 2 by decide)).2 _
    (fun call hcall => (List.eq_of_mem_replicate hcall ▸ le_rfl : 1 ≤ call.2)) (by decide)

end Calls

end AgentObservability.Store
