import AgentObservability.Dashboard.Leases

/-!
# What a request does to the leases

One lemma for each operation of the table. Most operations only drop leases or
touch them (`Kept`); `issueLease_of_fresh` says what is issued, and
`finishHistoryPage_cases` and `finishConsumedPage_cases` what the end of a page
can be.
-/

namespace AgentObservability.Dashboard

open Domain Contracts Foundation Report

variable {A : Type}

/-- A table of leases. -/
abbrev Leases (A : Type) := OrderedMap String (CursorLease A)

/-! ### Sizes -/

section Size

variable {m : Leases A} {c : String} {l l' : CursorLease A}

theorem length_erase_le : (m.erase c).entries.length ≤ m.entries.length := List.length_filter_le _ _

theorem length_insert_le : (m.insert c l).entries.length ≤ m.entries.length + 1 := by
  rw [OrderedMap.insert_perm.length_eq, List.length_cons]
  exact Nat.succ_le_succ length_erase_le

theorem length_insert_of_get? (h : m.get? c = some l') : (m.insert c l).entries.length = m.entries.length := by
  rw [OrderedMap.insert_perm.length_eq, (OrderedMap.perm_of_get? h).length_eq, List.length_cons, List.length_cons]

theorem length_filterMap_le {f : CursorLease A → Option (CursorLease A)} : (m.filterMap f).entries.length ≤ m.entries.length :=
  List.length_filterMap_le _ _

end Size

/-! ### Leases that are kept -/

/-- The lease is the same, but for the time of its last use. -/
structure CursorLease.Same (l l' : CursorLease A) : Prop where
  binding : l'.binding = l.binding
  state : l'.state = l.state
  createdAt : l'.createdAt = l.createdAt
  replay : l'.replay = l.replay

theorem CursorLease.Same.refl (l : CursorLease A) : l.Same l := ⟨rfl, rfl, rfl, rfl⟩

theorem CursorLease.Same.trans {l l' l'' : CursorLease A} (h : l.Same l') (h' : l'.Same l'') : l.Same l'' :=
  ⟨h'.binding.trans h.binding, h'.state.trans h.state, h'.createdAt.trans h.createdAt, h'.replay.trans h.replay⟩

/-- Leases were dropped or touched, and that is all. -/
structure Kept (m m' : Leases A) : Prop where
  length : m'.entries.length ≤ m.entries.length
  same : ∀ c l', m'.get? c = some l' → ∃ l, m.get? c = some l ∧ l.Same l'

theorem Kept.refl (m : Leases A) : Kept m m := ⟨le_rfl, fun _ l' h => ⟨l', h, .refl l'⟩⟩

theorem Kept.trans {m m' m'' : Leases A} (h : Kept m m') (h' : Kept m' m'') : Kept m m'' where
  length := h'.length.trans h.length
  same c l'' hl := by
    obtain ⟨l', hl', hsame'⟩ := h'.same c l'' hl
    obtain ⟨l, hl, hsame⟩ := h.same c l' hl'
    exact ⟨l, hl, hsame.trans hsame'⟩

theorem kept_erase (m : Leases A) (c : String) : Kept m (m.erase c) where
  length := length_erase_le
  same k l hl := by
    rw [OrderedMap.get?_erase] at hl
    split at hl
    · cases hl
    · exact ⟨l, hl, .refl l⟩

theorem kept_touch {m : Leases A} {c : String} {l l' : CursorLease A} (h : m.get? c = some l) (hsame : l.Same l') :
    Kept m (m.insert c l') where
  length := (length_insert_of_get? h).le
  same k x hx := by
    rw [OrderedMap.get?_insert] at hx
    split at hx
    · rename_i hk
      exact ⟨l, hk ▸ h, Option.some.inj hx ▸ hsame⟩
    · exact ⟨x, hx, .refl x⟩

namespace DashboardQueryService

variable {s : DashboardQueryService A} {now : ℕ}

theorem kept_pruneExpired : Kept s.leases (s.pruneExpired now).leases where
  length := length_filterMap_le
  same c l' hl := by
    have hget : (s.pruneExpired now).leases.get? c = (s.leases.get? c).bind fun lease =>
        if now - lease.lastUsed ≤ cursorIdleTtl ∧ now - lease.createdAt ≤ cursorHardTtl then some lease else none :=
      OrderedMap.get?_filterMap
    rw [hget] at hl
    obtain ⟨l, hl, hite⟩ := Option.bind_eq_some_iff.mp hl
    split at hite
    · exact ⟨l, hl, Option.some.inj hite ▸ .refl l⟩
    · cases hite

/-- What was pruned is in its time. -/
theorem createdAt_of_pruneExpired {c : String} {l : CursorLease A} (h : (s.pruneExpired now).leases.get? c = some l) :
    now - l.createdAt ≤ cursorHardTtl := by
  have hget : (s.pruneExpired now).leases.get? c = (s.leases.get? c).bind fun lease =>
      if now - lease.lastUsed ≤ cursorIdleTtl ∧ now - lease.createdAt ≤ cursorHardTtl then some lease else none :=
    OrderedMap.get?_filterMap
  rw [hget] at h
  obtain ⟨l', _, hite⟩ := Option.bind_eq_some_iff.mp h
  split at hite
  · rename_i hin
    exact Option.some.inj hite ▸ hin.2
  · cases hite

/-- A lease is honoured for its binding only. -/
theorem resolveLease_eq_ok {c : String} {binding : CursorBinding} {l : CursorLease A}
    (h : (s.resolveLease c binding now).2 = .ok l) :
    l.binding = binding ∧ (∃ l₀, s.leases.get? c = some l₀ ∧ l₀.Same l) ∧
      (s.resolveLease c binding now).1.leases.get? c = some l := by
  unfold resolveLease at h ⊢
  cases hget : s.leases.get? c with
  | none => simp [hget] at h
  | some lease =>
    by_cases hbinding : lease.binding = binding
    · subst hbinding
      simp only [hget, ne_eq, not_true_eq_false, if_false] at h ⊢
      cases h
      exact ⟨rfl, ⟨lease, rfl, ⟨rfl, rfl, rfl, rfl⟩⟩, OrderedMap.get?_insert_self⟩
    · simp [hget, hbinding] at h

/-- A lease that is not honoured changes nothing. -/
theorem resolveLease_eq_error {c : String} {binding : CursorBinding} {reason : DashboardStatusReasonV1}
    (h : (s.resolveLease c binding now).2 = .error reason) :
    (s.resolveLease c binding now).1 = s ∧ (s.leases.get? c = none ∧ reason = .snapshotExpired ∨
      ∃ lease, s.leases.get? c = some lease ∧ lease.binding ≠ binding ∧ reason = .invalidQuery) := by
  unfold resolveLease at h ⊢
  cases hget : s.leases.get? c with
  | none =>
    simp only [hget] at h ⊢
    cases h
    exact ⟨trivial, .inl ⟨trivial, rfl⟩⟩
  | some lease =>
    by_cases hbinding : lease.binding = binding
    · simp [hget, hbinding] at h
    · simp only [hget, ne_eq, hbinding, not_false_eq_true, if_true] at h ⊢
      cases h
      exact ⟨trivial, .inr ⟨lease, rfl, hbinding, rfl⟩⟩

theorem kept_resolveLease {c : String} {binding : CursorBinding} :
    Kept s.leases (s.resolveLease c binding now).1.leases := by
  unfold resolveLease
  cases hget : s.leases.get? c with
  | none => exact .refl _
  | some lease =>
    by_cases hbinding : lease.binding = binding
    · subst hbinding
      simp only [ne_eq, not_true_eq_false, if_false]
      exact kept_touch hget ⟨rfl, rfl, rfl, rfl⟩
    · simp only [hbinding, ne_eq, not_false_eq_true, if_true]
      exact .refl _

/-- What a request does not change. -/
def SameIds (s s' : DashboardQueryService A) : Prop :=
  s'.secret = s.secret ∧ s'.processId = s.processId ∧ s'.sequence = s.sequence

theorem SameIds.trans {s s' s'' : DashboardQueryService A} (h : SameIds s s') (h' : SameIds s' s'') : SameIds s s'' :=
  ⟨h'.1.trans h.1, h'.2.1.trans h.2.1, h'.2.2.trans h.2.2⟩

theorem sameIds_resolveLease {c : String} {binding : CursorBinding} : SameIds s (s.resolveLease c binding now).1 := by
  unfold resolveLease
  cases s.leases.get? c with
  | none => exact ⟨rfl, rfl, rfl⟩
  | some lease =>
    simp only
    split <;> exact ⟨rfl, rfl, rfl⟩

/-! ### Room for a lease -/

theorem makeRoomLoop_sub {kept : Option String} {rounds : ℕ} :
    ∀ {m : Leases A} {c : String} {l : CursorLease A}, (makeRoomLoop kept rounds m).get? c = some l → m.get? c = some l := by
  induction rounds with
  | zero => exact fun h => h
  | succ rounds ih =>
    intro m c l h
    rw [makeRoomLoop] at h
    split at h
    · split at h
      · exact h
      · have hget := ih h
        rw [OrderedMap.get?_erase] at hget
        split at hget
        · cases hget
        · exact hget
    · exact h

theorem makeRoomLoop_kept {id : String} {rounds : ℕ} :
    ∀ {m : Leases A}, (makeRoomLoop (some id) rounds m).get? id = m.get? id := by
  induction rounds with
  | zero => exact rfl
  | succ rounds ih =>
    intro m
    rw [makeRoomLoop]
    split
    · split
      · rfl
      · rename_i cursor hcursor
        obtain ⟨entry, hentry, rfl⟩ := Option.map_eq_some_iff.mp hcursor
        have hne : ¬ some id = some entry.1 := by
          simpa using (List.mem_filter.mp (List.argmin_mem hentry)).2
        rw [ih, OrderedMap.get?_erase, if_neg fun heq => hne (congrArg some heq)]
    · rfl

theorem length_makeRoomLoop {kept : Option String} {rounds : ℕ} :
    ∀ {m : Leases A}, m.entries.length ≤ rounds → (makeRoomLoop kept rounds m).entries.length < maxCursorLeases := by
  induction rounds with
  | zero =>
    intro m h
    rw [makeRoomLoop]
    exact lt_of_le_of_lt h (by decide)
  | succ rounds ih =>
    intro m h
    rw [makeRoomLoop]
    split
    · rename_i hfull
      split
      · rename_i hnone
        -- Nothing but the protected lease is there.
        have hempty : (m.entries.filter fun entry => kept ≠ some entry.1) = [] :=
          List.argmin_eq_none.mp (Option.map_eq_none_iff.mp hnone)
        have hsub : m.entries.map Prod.fst ⊆ kept.toList := by
          intro c hc
          obtain ⟨entry, hentry, rfl⟩ := List.mem_map.mp hc
          have hkept := List.filter_eq_nil_iff.mp hempty entry hentry
          simpa using hkept
        have hlength := (List.subperm_of_subset m.nodup_keys hsub).length_le
        have hone : kept.toList.length ≤ 1 := by cases kept <;> simp
        rw [List.length_map] at hlength
        exact lt_of_le_of_lt (hlength.trans hone) (by decide)
      · rename_i cursor hcursor
        obtain ⟨entry, hentry, rfl⟩ := Option.map_eq_some_iff.mp hcursor
        have hmem : entry ∈ m.entries := (List.mem_filter.mp (List.argmin_mem hentry)).1
        have hlength := (OrderedMap.perm_of_get? (OrderedMap.get?_eq_some.mpr hmem)).length_eq
        rw [List.length_cons] at hlength
        exact ih (by omega)
    · rename_i hroom
      exact Nat.lt_of_not_le hroom

theorem makeRoom_sub {m : Leases A} {kept : Option String} {c : String} {l : CursorLease A}
    (h : (makeRoom m kept).get? c = some l) : m.get? c = some l := makeRoomLoop_sub h

theorem length_makeRoom {m : Leases A} {kept : Option String} : (makeRoom m kept).entries.length < maxCursorLeases :=
  length_makeRoomLoop le_rfl

/-- The table with room and the new lease. -/
theorem get?_insert_makeRoom {m : Leases A} {kept : Option String} {cursor k : String} {lease l' : CursorLease A}
    (h : ((makeRoom m kept).insert cursor lease).get? k = some l') : k = cursor ∧ l' = lease ∨ k ≠ cursor ∧ m.get? k = some l' := by
  rw [OrderedMap.get?_insert] at h
  split at h
  · rename_i hk
    exact .inl ⟨hk, (Option.some.inj h).symm⟩
  · rename_i hk
    exact .inr ⟨hk, makeRoom_sub h⟩

theorem length_insert_makeRoom {m : Leases A} {kept : Option String} {cursor : String} {lease : CursorLease A} :
    ((makeRoom m kept).insert cursor lease).entries.length ≤ maxCursorLeases :=
  length_insert_le.trans length_makeRoom

/-! ### A new cursor -/

section Issue

variable [Sha2] {parentId : Option String} {binding : CursorBinding} {state : CursorState A}

/-- What a table of leases is after a cursor was issued: the new lease, and others that were there. The parent is gone, or
it has the boundary of its page. -/
structure Issued (s s' : DashboardQueryService A) (parentId : Option String) (binding : CursorBinding) (state : CursorState A)
    (now : ℕ) : Prop where
  secret : s'.secret = s.secret
  processId : s'.processId = s.processId
  sequence : s'.sequence = (s.sequence + 1) % 2 ^ 64
  length : s'.leases.entries.length ≤ maxCursorLeases
  new : ∀ l', s'.leases.get? s.nextCursorId.2 = some l' →
    l'.binding = binding ∧ l'.state = state ∧ l'.replay = none ∧
      l'.createdAt = ((parentId.bind s.leases.get?).map CursorLease.createdAt).getD now
  old : ∀ k l', k ≠ s.nextCursorId.2 → s'.leases.get? k = some l' →
    ∃ l, s.leases.get? k = some l ∧
      (parentId ≠ some k ∧ l' = l ∨
        parentId = some k ∧ isHistoryKind binding.kind = true ∧
          l' = { l with replay := some ⟨state, false, some s.nextCursorId.2⟩ })

/-- A cursor with a fresh id is issued if its parent is there. -/
theorem issueLease_of_fresh (binding : CursorBinding) (state : CursorState A) (now : ℕ) (hfresh : s.leases.get? s.nextCursorId.2 = none)
    (hparent : ∀ id ∈ parentId, ∃ parent, s.leases.get? id = some parent) :
    ∃ s', s.issueLease parentId binding state now = (s', .ok s.nextCursorId.2) ∧ Issued s s' parentId binding state now := by
  cases parentId with
  | none =>
    refine ⟨_, rfl, rfl, rfl, rfl, length_insert_makeRoom, fun l' hl => ?_, fun k l' hk hl => ?_⟩
    · obtain ⟨_, rfl⟩ | ⟨hne, _⟩ := get?_insert_makeRoom hl
      · exact ⟨rfl, rfl, rfl, rfl⟩
      · exact absurd rfl hne
    · obtain ⟨rfl, _⟩ | ⟨_, hold⟩ := get?_insert_makeRoom hl
      · exact absurd rfl hk
      · exact ⟨l', hold, .inl ⟨nofun, rfl⟩⟩
  | some id =>
    obtain ⟨parent, hget⟩ := hparent id rfl
    have hne : id ≠ s.nextCursorId.2 := by
      rintro rfl
      rw [hget] at hfresh
      cases hfresh
    rw [issueLease]
    simp only [hget]
    by_cases hhistory : isHistoryKind binding.kind = true
    · have hkept : ∀ lease : CursorLease A,
          ((makeRoom s.leases (some id)).insert s.nextCursorId.2 lease).get? id = some parent := by
        intro lease
        rw [OrderedMap.get?_insert_of_ne hne, makeRoom, makeRoomLoop_kept, hget]
      simp only [hhistory, if_true, hkept]
      refine ⟨_, rfl, rfl, rfl, rfl, ?_, fun l' hl => ?_, fun k l' hk hl => ?_⟩
      · exact (length_insert_of_get? (hkept _)).le.trans length_insert_makeRoom
      · rw [withLeases, OrderedMap.get?_insert_of_ne hne.symm, OrderedMap.get?_insert_self] at hl
        obtain rfl := Option.some.inj hl
        exact ⟨rfl, rfl, rfl, by simp [hget]⟩
      · rw [withLeases, OrderedMap.get?_insert] at hl
        split at hl
        · rename_i hid
          obtain rfl := Option.some.inj hl
          exact ⟨parent, hid ▸ hget, .inr ⟨congrArg some hid.symm, hhistory, rfl⟩⟩
        · rename_i hid
          obtain ⟨rfl, _⟩ | ⟨_, hold⟩ := get?_insert_makeRoom hl
          · exact absurd rfl hk
          · exact ⟨l', hold, .inl ⟨fun heq => hid (Option.some.inj heq).symm, rfl⟩⟩
    · simp only [hhistory, Bool.false_eq_true, if_false]
      refine ⟨_, rfl, rfl, rfl, rfl, length_insert_makeRoom, fun l' hl => ?_, fun k l' hk hl => ?_⟩
      · obtain ⟨_, rfl⟩ | ⟨hne', _⟩ := get?_insert_makeRoom hl
        · exact ⟨rfl, rfl, rfl, by simp [hget]⟩
        · exact absurd rfl hne'
      · obtain ⟨rfl, _⟩ | ⟨_, hold⟩ := get?_insert_makeRoom hl
        · exact absurd rfl hk
        · rw [OrderedMap.get?_erase] at hold
          split at hold
          · cases hold
          · rename_i hid
            exact ⟨l', hold, .inl ⟨fun heq => hid (Option.some.inj heq).symm, rfl⟩⟩

/-! ### The end of a page -/

/-- The parent of a page, with the boundary that its lease has. -/
def Parent (s : DashboardQueryService A) (parentId : Option String) (replay : Option (ReplayBoundary A)) : Prop :=
  match parentId with
  | none => replay = none
  | some id => ∃ lease, s.leases.get? id = some lease ∧ lease.replay = replay

/-- What the end of a page can be: the page is refused; it is the one that was read before; it is the last one; or a
cursor is issued for the next one. -/
inductive Finished (s : DashboardQueryService A) (parentId : Option String) (binding : CursorBinding) (output : CursorState A)
    (exhausted : Bool) (replay : Option (ReplayBoundary A)) (now : ℕ) :
    DashboardQueryService A → Except DashboardStatusReasonV1 (Option String) → Prop
  /-- The slice ended elsewhere, or the next lease is gone. -/
  | refused (s' : DashboardQueryService A) (ids : SameIds s s') (kept : Kept s.leases s'.leases)
    (history : isHistoryKind binding.kind = true) (again : replay.isSome) :
    Finished s parentId binding output exhausted replay now s' (.error .snapshotExpired)
  /-- The same page again. -/
  | again (boundary : ReplayBoundary A) (history : isHistoryKind binding.kind = true) (hreplay : replay = some boundary)
    (hexhausted : boundary.exhausted = exhausted) (hposition : boundary.outputState.samePosition output = true) :
    Finished s parentId binding output exhausted replay now s (.ok boundary.nextCursor)
  /-- The last page. -/
  | last (s' : DashboardQueryService A) (ids : SameIds s s') (length : s'.leases.entries.length ≤ s.leases.entries.length)
    (hexhausted : exhausted = true) (first : isHistoryKind binding.kind = true → replay = none)
    (old : ∀ k l', s'.leases.get? k = some l' → ∃ l, s.leases.get? k = some l ∧
      ((isHistoryKind binding.kind = true → parentId ≠ some k) ∧ l' = l ∨
        parentId = some k ∧ isHistoryKind binding.kind = true ∧ replay = none ∧ l' = { l with replay := some ⟨output, true, none⟩ })) :
    Finished s parentId binding output exhausted replay now s' (.ok none)
  /-- A page with a next one. -/
  | more (s' : DashboardQueryService A) (issued : Issued s s' parentId binding output now) (hexhausted : exhausted = false)
    (first : isHistoryKind binding.kind = true → replay = none) :
    Finished s parentId binding output exhausted replay now s' (.ok (some s.nextCursorId.2))

variable {output : CursorState A} {exhausted : Bool} {replay : Option (ReplayBoundary A)}

theorem finishConsumedPage_finished (hconsumed : isHistoryKind binding.kind = false)
    (hfresh : s.leases.get? s.nextCursorId.2 = none) (hparent : ∀ id ∈ parentId, ∃ parent, s.leases.get? id = some parent) :
    Finished s parentId binding output exhausted replay now
      (s.finishConsumedPage parentId binding output exhausted now).1 (s.finishConsumedPage parentId binding output exhausted now).2 := by
  unfold finishConsumedPage
  cases exhausted with
  | true =>
    have hnone : isHistoryKind binding.kind = true → replay = none := fun h => by simp [hconsumed] at h
    refine .last s ⟨rfl, rfl, rfl⟩ le_rfl rfl hnone fun k l' hl => ⟨l', hl, .inl ⟨fun h => ?_, rfl⟩⟩
    simp [hconsumed] at h
  | false =>
    obtain ⟨s', hissue, hissued⟩ := issueLease_of_fresh binding output now hfresh hparent
    simp only [Bool.false_eq_true, if_false, hissue]
    exact .more s' hissued rfl fun h => by simp [hconsumed] at h

theorem finishHistoryPage_finished (hhistory : isHistoryKind binding.kind = true)
    (hfresh : s.leases.get? s.nextCursorId.2 = none) (hparent : Parent s parentId replay) :
    Finished s parentId binding output exhausted replay now
      (s.finishHistoryPage parentId binding output exhausted replay now).1
      (s.finishHistoryPage parentId binding output exhausted replay now).2 := by
  unfold finishHistoryPage
  cases replay with
  | some boundary =>
    by_cases hfaithful : s.faithful boundary output exhausted = true
    · simp only [hfaithful, if_true]
      simp only [faithful, Bool.and_eq_true, decide_eq_true_eq] at hfaithful
      exact .again boundary hhistory rfl hfaithful.1.1 hfaithful.1.2
    · simp only [hfaithful, Bool.false_eq_true, if_false]
      refine .refused _ ?_ ?_ hhistory rfl
      · cases parentId <;> exact ⟨rfl, rfl, rfl⟩
      · cases parentId with
        | none => exact .refl _
        | some id => exact kept_erase _ _
  | none =>
    cases exhausted with
    | true =>
      simp only [if_true]
      cases parentId with
      | none => exact .last s ⟨rfl, rfl, rfl⟩ le_rfl rfl (fun _ => rfl) fun k l' hl => ⟨l', hl, .inl ⟨fun _ => nofun, rfl⟩⟩
      | some id =>
        obtain ⟨parent, hget, hreplay⟩ := hparent
        simp only [hget]
        refine .last _ ⟨rfl, rfl, rfl⟩ (length_insert_of_get? hget).le rfl (fun _ => rfl) fun k l' hl => ?_
        rw [withLeases, OrderedMap.get?_insert] at hl
        split at hl
        · rename_i hk
          exact ⟨parent, hk ▸ hget, .inr ⟨congrArg some hk.symm, hhistory, rfl, (Option.some.inj hl).symm⟩⟩
        · rename_i hk
          exact ⟨l', hl, .inl ⟨fun _ heq => hk (Option.some.inj heq).symm, rfl⟩⟩
    | false =>
      have hthere : ∀ id ∈ parentId, ∃ parent, s.leases.get? id = some parent := by
        rintro id rfl
        obtain ⟨parent, hget, _⟩ := hparent
        exact ⟨parent, hget⟩
      obtain ⟨s', hissue, hissued⟩ := issueLease_of_fresh binding output now hfresh hthere
      simp only [Bool.false_eq_true, if_false, hissue]
      exact .more s' hissued rfl fun _ => rfl

end Issue

end DashboardQueryService

end AgentObservability.Dashboard
