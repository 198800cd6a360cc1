import Mathlib.Data.Nat.Notation
import Mathlib.Data.List.Infix

/-!
# A message in pieces

A reader takes pieces from a stream, appends each to what it has, and asks a parser
after each whether it has a message. It gives up at the end of the stream, when the
parser fails, and when it would have more than it may.

A parser that never answers early (`Patient`) makes the reader exact: it returns a
message exactly when the pieces, however they are cut, are the text of that message
(`readUntil_eq_ok`).
-/

namespace AgentObservability.Foundation

universe u v w x

variable {α : Type u} {σ : Type v} {ε : Type w} {ρ : Type x}

section Reader

variable (read : σ → Except ε (List α) × σ) (limit : ℕ) (oversized incomplete : ε)
  (parse : List α → Except ε (Option ρ))

/-- Read until the parser has a message. An empty piece is the end of the stream. -/
def readUntil (text : List α) (stream : σ) : Except ε ρ × σ :=
  match read stream with
  | (.error e, stream) => (.error e, stream)
  | (.ok [], stream) => (.error incomplete, stream)
  | (.ok (a :: piece), stream) =>
    if _hfits : limit < text.length + (a :: piece).length then (.error oversized, stream)
    else
      match parse (text ++ a :: piece) with
      | .error e => (.error e, stream)
      | .ok (some message) => (.ok message, stream)
      | .ok none => readUntil (text ++ a :: piece) stream
termination_by limit - text.length
decreasing_by
  simp only [List.length_append, List.length_cons] at _hfits ⊢
  omega

/-- The stream gives these pieces, none of them empty, and is left there. -/
inductive Delivers : σ → List (List α) → σ → Prop
  | done (stream : σ) : Delivers stream [] stream
  | piece {stream next last : σ} {piece : List α} {pieces : List (List α)} :
    read stream = (.ok piece, next) → piece ≠ [] → Delivers next pieces last → Delivers stream (piece :: pieces) last

end Reader

/-- The parser waits on every text that a message properly goes on from. -/
def Patient (parse : List α → Except ε (Option ρ)) : Prop :=
  ∀ text more message, more ≠ [] → parse (text ++ more) = .ok (some message) → parse text = .ok none

variable {read : σ → Except ε (List α) × σ} {limit : ℕ} {oversized incomplete : ε}
  {parse : List α → Except ε (Option ρ)}

/-- What the reader returns is the message of what it has read. -/
theorem delivers_of_readUntil {text : List α} {stream last : σ} {message : ρ}
    (h : readUntil read limit oversized incomplete parse text stream = (.ok message, last)) :
    ∃ pieces, Delivers read stream pieces last ∧ (text ++ pieces.flatten).length ≤ limit ∧
      parse (text ++ pieces.flatten) = .ok (some message) := by
  fun_induction readUntil read limit oversized incomplete parse text stream with
  | case1 => cases h
  | case2 => cases h
  | case3 => cases h
  | case4 => cases h
  | case5 text stream a piece next hread hfits found hparse =>
    cases h
    refine ⟨[a :: piece], .piece hread (List.cons_ne_nil _ _) (.done _), ?_, ?_⟩
    · rw [List.flatten_singleton, List.length_append]
      exact Nat.le_of_not_lt hfits
    · rwa [List.flatten_singleton]
  | case6 text stream a piece next hread hfits hparse ih =>
    obtain ⟨pieces, hpieces, hlimit, hmessage⟩ := ih h
    rw [List.append_assoc] at hlimit hmessage
    exact ⟨(a :: piece) :: pieces, .piece hread (List.cons_ne_nil _ _) hpieces, hlimit, hmessage⟩

/-- However a message is cut into pieces, the reader returns it. -/
theorem readUntil_of_delivers (hpatient : Patient parse) {stream last : σ} {pieces : List (List α)}
    (h : Delivers read stream pieces last) {text : List α} {message : ρ} (hne : pieces ≠ [])
    (hlimit : (text ++ pieces.flatten).length ≤ limit) (hparse : parse (text ++ pieces.flatten) = .ok (some message)) :
    readUntil read limit oversized incomplete parse text stream = (.ok message, last) := by
  induction h generalizing text with
  | done => exact absurd rfl hne
  | @piece stream next last piece pieces hread hpiece hpieces ih =>
    obtain ⟨a, piece, rfl⟩ := List.exists_cons_of_ne_nil hpiece
    rw [List.flatten_cons, ← List.append_assoc] at hlimit hparse
    have hfits : ¬ limit < text.length + (a :: piece).length := by
      rw [List.length_append, List.length_append] at hlimit
      omega
    unfold readUntil
    rw [hread]
    simp only
    rw [dif_neg hfits]
    by_cases hend : pieces = []
    · -- the last piece: the text is the message
      subst hend
      rw [List.flatten_nil, List.append_nil] at hparse
      cases hpieces
      rw [hparse]
    · have hmore : pieces.flatten ≠ [] := by
        cases hpieces with
        | done => exact absurd rfl hend
        | piece _ hpiece _ => simp [hpiece]
      rw [hpatient _ _ message hmore hparse]
      exact ih hend hlimit hparse

/-- **The reader is exact under every fragmentation.** -/
theorem readUntil_eq_ok (hpatient : Patient parse) (hstart : ∀ message, parse [] ≠ .ok (some message)) {stream last : σ}
    {message : ρ} :
    readUntil read limit oversized incomplete parse [] stream = (.ok message, last) ↔
      ∃ pieces, Delivers read stream pieces last ∧ pieces.flatten.length ≤ limit ∧
        parse pieces.flatten = .ok (some message) := by
  constructor
  · exact delivers_of_readUntil
  · rintro ⟨pieces, hpieces, hlimit, hparse⟩
    apply readUntil_of_delivers hpatient hpieces _ hlimit hparse
    rintro rfl
    exact hstart message hparse

end AgentObservability.Foundation
