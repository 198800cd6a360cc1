import AgentObservability.Foundation.JsonText
import AgentObservability.Foundation.Sha256
import Mathlib.Data.List.Infix
import Mathlib.Data.Char

/-!
# The privacy boundary of single values

Opaque identifiers leave a source only as a digest, and free text only after
`redactSensitiveText` has looked for secrets and paths in it.

The digest is SHA-256 of the `sha2` crate. The store compares digests for
equality and never looks into one, so `Sha2` leaves the function open and every
result about the store holds whichever function it is.
-/

namespace AgentObservability.Contracts

open Foundation

/-- SHA-256 of the `sha2` crate, as lower-case hexadecimal text. -/
class Sha2 where
  /-- The digest of some bytes. -/
  hexDigest : List UInt8 → String

/-- The digest itself, for evaluation. -/
theorem sha2_eq : (⟨Sha256.hexDigest⟩ : Sha2) = ⟨Sha256.digest⟩ :=
  congrArg Sha2.mk Sha256.hexDigest_eq

/-- The bytes of a string. -/
def bytes (s : String) : List UInt8 := utf8 [s]

/-- `u64::to_be_bytes`. -/
def toBeBytes (n : ℕ) : List UInt8 :=
  (List.range 8).reverse.map fun i => UInt8.ofNat (n / 256 ^ i)

section Identifiers

variable [Sha2]

/-- `digest_components`: each component with its length before it. -/
def digestComponents (components : List String) : String :=
  Sha2.hexDigest (components.flatMap fun c => toBeBytes c.utf8ByteSize ++ bytes c)

/-- `PREFIX` of `hash_opaque_identifier`. -/
def privatePrefix : String := "id:sha256:"

/-- The identifier carries the prefix of a digest. -/
def IsPrivate (value : String) : Prop := privatePrefix.toList <+: value.toList

instance (value : String) : Decidable (IsPrivate value) :=
  inferInstanceAs (Decidable (privatePrefix.toList <+: value.toList))

/-- `hash_opaque_identifier`: an identifier that is a digest already stays as it is. -/
def hashOpaqueIdentifier (value : String) : String :=
  if IsPrivate value then value else privatePrefix ++ Sha2.hexDigest (bytes value)

theorem hashOpaqueIdentifier_of_private {value : String} (h : IsPrivate value) :
    hashOpaqueIdentifier value = value := if_pos h

/-- What the function returns has the prefix. -/
theorem isPrivate_hashOpaqueIdentifier (value : String) : IsPrivate (hashOpaqueIdentifier value) := by
  unfold hashOpaqueIdentifier
  split
  · assumption
  · simp [IsPrivate]

@[simp] theorem hashOpaqueIdentifier_idem (value : String) :
    hashOpaqueIdentifier (hashOpaqueIdentifier value) = hashOpaqueIdentifier value :=
  hashOpaqueIdentifier_of_private (isPrivate_hashOpaqueIdentifier value)

theorem hashOpaqueIdentifier_ne_empty (value : String) : hashOpaqueIdentifier value ≠ "" := by
  intro h
  have := isPrivate_hashOpaqueIdentifier value
  rw [h] at this
  exact absurd this (by decide)

end Identifiers

/-! ### Free text -/

/-- `to_ascii_lowercase`. -/
def asciiLowercase (t : List Char) : List Char := t.map Char.toLower

/-- `str::contains`. -/
def containsText (t : List Char) (pattern : String) : Bool := t.tails.any (pattern.toList.isPrefixOf ·)

/-- Some pattern of the list occurs. -/
def containsAny (t : List Char) (patterns : List String) : Bool := patterns.any (containsText t)

/-- `char::is_control`. -/
def isControl (c : Char) : Bool := c.toNat < 32 || (127 ≤ c.toNat && c.toNat < 160)

/-- `char::is_whitespace`. -/
def isWhitespace (c : Char) : Bool :=
  (9 ≤ c.toNat && c.toNat ≤ 13) || (8192 ≤ c.toNat && c.toNat ≤ 8202) ||
    [32, 133, 160, 5760, 8232, 8233, 8239, 8287, 12288].contains c.toNat

/-- `split_whitespace`, joined with single spaces. -/
def normalizedWhitespace (t : List Char) : List Char :=
  (((t.splitBy fun a b => isWhitespace a == isWhitespace b).filter fun word => !word.any isWhitespace).intersperse
    [' ']).flatten

/-- The components of a path between its slashes. -/
def pathComponents (t : List Char) : List (List Char) :=
  (t.splitBy fun a b => (a == '/') == (b == '/')).filter fun part => !part.contains '/' && part != ['.']

/-- `Path::extension`: what follows the last dot of the file name, if something precedes it. -/
def pathExtension (t : List Char) : Option (List Char) :=
  match (pathComponents t).getLast? with
  | none => none
  | some name =>
    if name = ['.', '.'] then none
    else
      let after := (name.reverse.takeWhile (· != '.')).reverse
      let before := name.take (name.length - after.length - 1)
      if after.length = name.length || before.isEmpty then none else some after

/-- The keys whose values are secret. -/
def sensitiveKeys : List String :=
  ["authorization", "cookie", "credential", "password", "passwd", "secret", "token", "api_key", "access_key",
   "private_key", "refresh_token", "session_key"]

/-- The names of secrets that must not be assigned in a text. -/
def secretNames : List String :=
  ["authorization", "cookie", "password", "passwd", "secret", "token", "id_token", "api_key", "api-key",
   "access_token", "refresh_token"]

/-- The spellings of an assigned secret. -/
def secretPatterns : List String :=
  ["authorization:", "authorization=", "cookie:", "cookie=", "password=", "password:", "passwd=", "secret=",
   "secret:", "api_key=", "api-key=", "access_token=", "refresh_token=", "private key"]

/-- `redact_sensitive_text`. -/
def redactSensitiveText (value key : String) : String :=
  let text := value.toList
  let lower := asciiLowercase text
  let key := asciiLowercase key.toList
  let secretAssignment := containsAny lower secretNames && (lower.contains '=' || lower.contains ':')
  if containsAny key sensitiveKeys || secretAssignment || text.any isControl || containsAny lower secretPatterns
      || containsText (normalizedWhitespace lower) "bearer " then "[redacted]"
  else if lower = ".env".toList || ".env.".toList.isPrefixOf lower || containsText lower "/.env"
      || [some "pem".toList, some "key".toList].contains (pathExtension lower)
      || containsAny lower [".pem ", ".key ", ".tfstate", ".tfvars"]
      || (containsText key "path" && (text.contains '/' || text.contains '\\')) then "[redacted path]"
  else value

/-- A redaction leaves no text empty. -/
theorem redactSensitiveText_ne_empty {value key : String} (h : value ≠ "") : redactSensitiveText value key ≠ "" := by
  unfold redactSensitiveText
  simp only
  split
  · decide
  · split
    · decide
    · exact h

end AgentObservability.Contracts
