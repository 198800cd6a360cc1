import AgentObservability.Foundation.Occurrence
import AgentObservability.Foundation.Run

/-!
# The deadline of the request headers

The collector gives a connection so long to send the headers of a request.
`ProtectedIo` watches what is read for the end of the headers, in whatever pieces
it comes, and a reply starts the wait for the next request. Of what was read it
keeps only how much of the terminator it ends with.
-/

namespace AgentObservability.Collector

open Foundation

/-- `HEADER_TERMINATOR`. -/
def headerTerminator : List UInt8 := [13, 10, 13, 10]

/-- Why a read fails. -/
inductive IoError where
  /-- `ErrorKind::TimedOut`, with its text. -/
  | timedOut (message : String)
  /-- The stream under it failed. -/
  | stream
  deriving DecidableEq, Repr

/-- What a poll of the stream gives: nothing yet, or bytes. -/
inductive Poll where
  | pending
  | ready (outcome : Except IoError (List UInt8))

/-- The bytes a poll has read. -/
def Poll.bytes : Poll → List UInt8
  | .ready (.ok bytes) => bytes
  | _ => []

/-- The connection as the server reads it. Instants are in milliseconds. -/
structure ProtectedIo where
  headerReadTimeout : ℕ
  headerDeadline : ℕ
  /-- An index into the terminator. -/
  headerMatch : Fin headerTerminator.length
  readingHeaders : Bool
  deriving DecidableEq, Repr

namespace ProtectedIo

/-- A connection that was accepted now. -/
def new (headerReadTimeout now : ℕ) : ProtectedIo where
  headerReadTimeout
  headerDeadline := now + headerReadTimeout
  headerMatch := ⟨0, by decide⟩
  readingHeaders := true

/-- The loop of `observe_read`. -/
def observeBytes (io : ProtectedIo) : List UInt8 → ProtectedIo
  | [] => io
  | byte :: bytes =>
    if byte = headerTerminator[io.headerMatch] then
      if h : io.headerMatch + 1 = headerTerminator.length then
        { io with readingHeaders := false, headerMatch := ⟨0, by decide⟩ }
      else observeBytes { io with headerMatch := ⟨io.headerMatch + 1, by omega⟩ } bytes
    else
      observeBytes
        { io with headerMatch := if byte = headerTerminator[0] then ⟨1, by decide⟩ else ⟨0, by decide⟩ } bytes

/-- What a read does to the scanner. -/
def observeRead (io : ProtectedIo) (bytes : List UInt8) : ProtectedIo :=
  if !io.readingHeaders then io else observeBytes io bytes

/-- The wait for the next headers starts, unless it is on. -/
def rearmHeaderDeadline (io : ProtectedIo) (now : ℕ) : ProtectedIo :=
  if !io.readingHeaders then
    { io with readingHeaders := true, headerMatch := ⟨0, by decide⟩, headerDeadline := now + io.headerReadTimeout }
  else io

/-- `poll_read`, with what a poll of the stream would give. -/
def pollRead (io : ProtectedIo) (now : ℕ) (stream : Poll) : ProtectedIo × Poll :=
  if io.readingHeaders && io.headerDeadline ≤ now then
    (io, .ready (.error (.timedOut "collector request headers timed out")))
  else
    match stream with
    | .ready (.ok bytes) => (io.observeRead bytes, .ready (.ok bytes))
    | result => (io, result)

/-- `poll_write`, as far as it concerns the scanner. -/
def pollWrite (io : ProtectedIo) (now : ℕ) : ProtectedIo := io.rearmHeaderDeadline now

end ProtectedIo

/-! ### Runs of a connection -/

/-- The server polls a connection. -/
inductive Event where
  | pollRead (now : ℕ) (stream : Poll)
  | pollWrite (now : ℕ)

/-- A connection, and what was read since its scanner was last armed. -/
structure Connection where
  io : ProtectedIo
  sinceArmed : List UInt8

namespace Connection

/-- It is accepted with the scanner armed. -/
def accepted (headerReadTimeout now : ℕ) : Connection := ⟨.new headerReadTimeout now, []⟩

/-- One poll. A write arms the scanner where it was not armed. -/
def step (c : Connection) : Event → Connection
  | .pollRead now stream =>
    let (io, poll) := c.io.pollRead now stream
    ⟨io, c.sinceArmed ++ poll.bytes⟩
  | .pollWrite now => ⟨c.io.pollWrite now, if c.io.readingHeaders then c.sinceArmed else []⟩

end Connection

/-! ### The scanner -/

/-- How a beginning of the terminator goes on. -/
def nextMatch (k : ℕ) (byte : UInt8) : ℕ :=
  if headerTerminator[k]? = some byte then k + 1 else if byte = 13 then 1 else 0

theorem longestEnd_nextMatch : ∀ byte ∈ headerTerminator, ∀ k < headerTerminator.length,
    headerTerminator.take (nextMatch k byte) <:+ headerTerminator.take k ++ [byte] ∧
      ∀ j < headerTerminator.length + 1,
        headerTerminator.take j <:+ headerTerminator.take k ++ [byte] → j ≤ nextMatch k byte := by
  decide +kernel

theorem nextMatch_other {byte : UInt8} (h : byte ∉ headerTerminator) (k : ℕ) : nextMatch k byte = 0 := by
  have hnone : headerTerminator[k]? ≠ some byte := fun hk => h (List.mem_of_getElem? hk)
  have hcr : byte ≠ 13 := fun heq => h (heq ▸ List.mem_cons_self)
  unfold nextMatch
  rw [if_neg hnone, if_neg hcr]

/-- **A match that breaks off falls back to the longest beginning that is still there.** -/
theorem follows_nextMatch : Follows headerTerminator nextMatch := by
  intro k hk byte
  by_cases hbyte : byte ∈ headerTerminator
  · obtain ⟨hends, hlongest⟩ := longestEnd_nextMatch byte hbyte k hk
    exact ⟨hends, fun j hj => hlongest j (Nat.lt_succ_of_le hj)⟩
  · -- the byte ends no beginning of the terminator but the empty one
    rw [nextMatch_other hbyte]
    refine ⟨List.nil_suffix, ?_⟩
    intro j _ hends
    by_contra hpos
    have hlast : byte ∈ headerTerminator.take j := by
      rcases List.suffix_concat_iff.mp hends with hnil | ⟨t, ht, -⟩
      · have hlen := congrArg List.length hnil
        rw [List.length_take, List.length_nil] at hlen
        have : headerTerminator.length = 4 := rfl
        omega
      · rw [ht]
        exact List.mem_append_right _ List.mem_cons_self
    exact hbyte (List.mem_of_mem_take hlast)

theorem ProtectedIo.observeRead_nil (io : ProtectedIo) : io.observeRead [] = io := by
  unfold observeRead observeBytes
  split <;> rfl

/-- The scanner sees what the poll gives to the server, and nothing else. -/
theorem ProtectedIo.pollRead_fst (io : ProtectedIo) (now : ℕ) (stream : Poll) :
    (io.pollRead now stream).1 = io.observeRead (io.pollRead now stream).2.bytes := by
  unfold pollRead
  split
  · exact (observeRead_nil io).symm
  · match stream with
    | .pending => exact (observeRead_nil io).symm
    | .ready (.error _) => exact (observeRead_nil io).symm
    | .ready (.ok _) => rfl

/-- The scanner knows what was read since it was armed: whether the terminator is in it and, while it
is not, how much of it the bytes end with. -/
structure Scanned (io : ProtectedIo) (bytes : List UInt8) : Prop where
  reading : io.readingHeaders = true ↔ ¬ headerTerminator <:+: bytes
  longest : io.readingHeaders = true → LongestEnd headerTerminator bytes io.headerMatch

theorem scanned_armed {io : ProtectedIo} (hreading : io.readingHeaders = true) (hmatch : io.headerMatch.val = 0) :
    Scanned io [] := by
  refine ⟨?_, fun _ => ?_⟩
  · simp [hreading, headerTerminator]
  · rw [hmatch]
    exact longestEnd_nil (by decide)

/-- What one byte makes of the scanner. -/
theorem Scanned.byte {io : ProtectedIo} {before : List UInt8} (h : Scanned io before)
    (hreading : io.readingHeaders = true) (byte : UInt8) :
    LongestEnd headerTerminator (before ++ [byte]) (nextMatch io.headerMatch byte) ∧
      (nextMatch io.headerMatch byte = headerTerminator.length ↔ headerTerminator <:+: before ++ [byte]) := by
  have hlongest := (h.longest hreading).next follows_nextMatch io.headerMatch.isLt byte
  have hle : nextMatch io.headerMatch byte ≤ headerTerminator.length := by
    have := io.headerMatch.isLt
    have hlen : headerTerminator.length = 4 := rfl
    unfold nextMatch
    split_ifs <;> omega
  refine ⟨hlongest, ?_⟩
  rw [hlongest.whole hle, List.infix_concat_iff]
  exact ⟨.inl, fun hor => hor.resolve_right (h.reading.mp hreading)⟩

/-- **The scanner after a read knows what was read, the read included.** -/
theorem Scanned.observeBytes {io : ProtectedIo} {before : List UInt8} (h : Scanned io before)
    (hreading : io.readingHeaders = true) (bytes : List UInt8) :
    Scanned (io.observeBytes bytes) (before ++ bytes) := by
  induction bytes generalizing io before with
  | nil => rwa [List.append_nil]
  | cons byte bytes ih =>
    obtain ⟨hlongest, hwhole⟩ := h.byte hreading byte
    rw [List.append_cons]
    unfold ProtectedIo.observeBytes
    have hsome : headerTerminator[io.headerMatch.val]? = some headerTerminator[io.headerMatch] :=
      List.getElem?_eq_getElem io.headerMatch.isLt
    by_cases hmatch : byte = headerTerminator[io.headerMatch]
    · have hnext : nextMatch io.headerMatch byte = io.headerMatch + 1 := by
        unfold nextMatch
        rw [hsome, if_pos (congrArg some hmatch.symm)]
      rw [if_pos hmatch]
      rw [hnext] at hlongest hwhole
      by_cases hend : io.headerMatch + 1 = headerTerminator.length
      · rw [dif_pos hend]
        have hinfix := (hwhole.mp hend).trans (List.prefix_append (before ++ [byte]) bytes).isInfix
        exact ⟨iff_of_false Bool.false_ne_true (not_not_intro hinfix), nofun⟩
      · rw [dif_neg hend]
        have hio : Scanned { io with headerMatch := ⟨io.headerMatch + 1, by omega⟩ } (before ++ [byte]) :=
          ⟨iff_of_true hreading (fun hinfix => hend (hwhole.mpr hinfix)), fun _ => hlongest⟩
        exact ih hio hreading
    · have hnext : nextMatch io.headerMatch byte = if byte = 13 then 1 else 0 := by
        unfold nextMatch
        rw [hsome, if_neg (fun heq => hmatch (Option.some.inj heq).symm)]
      rw [if_neg hmatch]
      rw [hnext] at hlongest hwhole
      have hnot : ¬ headerTerminator <:+: before ++ [byte] := by
        rw [← hwhole]
        split_ifs <;> decide
      have hio : Scanned { io with
          headerMatch := if byte = headerTerminator[0] then ⟨1, by decide⟩ else ⟨0, by decide⟩ } (before ++ [byte]) := by
        refine ⟨iff_of_true hreading hnot, fun _ => ?_⟩
        have hfirst : headerTerminator[0] = 13 := rfl
        rw [hfirst]
        split_ifs at hlongest ⊢ <;> exact hlongest
      exact ih hio hreading

theorem Scanned.observeRead {io : ProtectedIo} {before : List UInt8} (h : Scanned io before)
    (bytes : List UInt8) : Scanned (io.observeRead bytes) (before ++ bytes) := by
  unfold ProtectedIo.observeRead
  by_cases hreading : io.readingHeaders = true
  · rw [hreading]
    exact h.observeBytes hreading bytes
  · -- the scanner is not armed: the terminator has been read
    have hinfix : headerTerminator <:+: before := by
      by_contra hnot
      exact hreading (h.reading.mpr hnot)
    have hmore := hinfix.trans (List.prefix_append before bytes).isInfix
    rw [Bool.not_eq_true] at hreading
    rw [hreading]
    exact ⟨by simp [hreading, hmore], fun hon => absurd hon (by simp [hreading])⟩

theorem Scanned.rearm {io : ProtectedIo} {before : List UInt8} (h : Scanned io before) (now : ℕ) :
    Scanned (io.rearmHeaderDeadline now) (if io.readingHeaders then before else []) := by
  unfold ProtectedIo.rearmHeaderDeadline
  cases hreading : io.readingHeaders with
  | true => exact h
  | false => exact scanned_armed rfl rfl

/-- One poll keeps it. -/
theorem Scanned.step {c : Connection} (h : Scanned c.io c.sinceArmed) (e : Event) :
    Scanned (c.step e).io (c.step e).sinceArmed := by
  cases e with
  | pollWrite now => exact h.rearm now
  | pollRead now stream =>
    unfold Connection.step
    simp only
    rw [ProtectedIo.pollRead_fst]
    exact h.observeRead _

/-- It holds whenever the server has polled a connection. -/
theorem scanned_after (headerReadTimeout start : ℕ) (events : List Event) :
    let c := After Connection.step (.accepted headerReadTimeout start) events
    Scanned c.io c.sinceArmed := by
  have hstart : Scanned (Connection.accepted headerReadTimeout start).io [] := scanned_armed rfl rfl
  exact invariant_after (I := fun c : Connection => Scanned c.io c.sinceArmed) (fun _ e h _ => Scanned.step h e) hstart
    (along_true events)

/-- **The headers end at the read that completes the terminator since the scanner was last armed, and
at no other**, however the bytes are cut into reads. -/
theorem observeRead_exact (headerReadTimeout start : ℕ) (events : List Event) (bytes : List UInt8) :
    let c := After Connection.step (.accepted headerReadTimeout start) events
    (c.io.readingHeaders = true ∧ (c.io.observeRead bytes).readingHeaders = false ↔
      ¬ headerTerminator <:+: c.sinceArmed ∧ headerTerminator <:+: c.sinceArmed ++ bytes) ∧
    (c.io.readingHeaders = true ↔ ¬ headerTerminator <:+: c.sinceArmed) := by
  intro c
  have hscanned := scanned_after headerReadTimeout start events
  have hread := (hscanned.observeRead bytes).reading
  refine ⟨?_, hscanned.reading⟩
  rw [hscanned.reading, ← Bool.not_eq_true, hread, not_not]

/-- A read is refused exactly when the deadline has passed and the headers have not ended. -/
theorem pollRead_timedOut (headerReadTimeout start : ℕ) (events : List Event) (now : ℕ) (bytes : List UInt8) :
    let c := After Connection.step (.accepted headerReadTimeout start) events
    (c.io.pollRead now (.ready (.ok bytes))).2 =
        .ready (.error (.timedOut "collector request headers timed out")) ↔
      ¬ headerTerminator <:+: c.sinceArmed ∧ c.io.headerDeadline ≤ now := by
  intro c
  rw [← (scanned_after headerReadTimeout start events).reading]
  unfold ProtectedIo.pollRead
  by_cases hlate : (c.io.readingHeaders && decide (c.io.headerDeadline ≤ now)) = true
  · rw [if_pos hlate]
    simpa using hlate
  · rw [if_neg hlate]
    simpa using hlate

end AgentObservability.Collector
