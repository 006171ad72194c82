import Retonr.Inference.Contract
import Retonr.Lib.JsonReader

/-! The envelope in which a backend returns its candidates: the policy with its derived ceiling, and
the bounded reader of the envelope. The scanner of the JSON text is a parameter. -/

namespace Retonr
open Text Retonr.Except

def maxJsonBytesPerDecodedByte : Nat := 6
def maxEnvelopeFramingBytes : Nat := 16
def maxCandidateFramingBytes : Nat := 12
def rawEnvelopeAllowanceBytes : Nat := 256

inductive CandidateOutputError where
  | invalidPolicy
  | envelopeTooLarge
  | invalidUtf8
  | invalidEnvelope
  | countMismatch
  | candidateTooLarge
  | aggregateByteCountOverflow
  | aggregateTooLarge
  deriving DecidableEq

structure CandidateOutputPolicy where
  (expectedCount maximumCandidateBytes maximumAggregateCandidateBytes maximumEnvelopeBytes : Nat)
  deriving DecidableEq

namespace CandidateOutputPolicy

def new (expectedCount maximumCandidateBytes maximumAggregateCandidateBytes : Nat) : Except CandidateOutputError CandidateOutputPolicy := do
  require (¬(expectedCount = 0 ∨ maxInferenceCandidates < expectedCount ∨ maximumCandidateBytes = 0 ∨
    maximumAggregateCandidateBytes = 0)) .invalidPolicy
  let usefulAggregateCeiling := maximumCandidateBytes * expectedCount
  require (usefulAggregateCeiling < 2 ^ 64) .invalidPolicy
  require (maximumAggregateCandidateBytes ≤ usefulAggregateCeiling) .invalidPolicy
  let escapedCandidateBytes := maximumAggregateCandidateBytes * maxJsonBytesPerDecodedByte
  require (escapedCandidateBytes < 2 ^ 64) .invalidPolicy
  let framingBytes := expectedCount * maxCandidateFramingBytes + maxEnvelopeFramingBytes + rawEnvelopeAllowanceBytes
  let maximumEnvelopeBytes := escapedCandidateBytes + framingBytes
  require (maximumEnvelopeBytes < 2 ^ 64) .invalidPolicy
  .ok { expectedCount, maximumCandidateBytes, maximumAggregateCandidateBytes, maximumEnvelopeBytes }

end CandidateOutputPolicy

namespace CandidateOutput

def checkedAggregateByteCount (current next : Nat) : Except CandidateOutputError Nat := do
  require (current + next < 2 ^ 64) .aggregateByteCountOverflow
  .ok (current + next)

/-- The candidates seen so far and their bytes. -/
structure Received where
  candidates : List GenerationCandidate
  aggregateBytes : Nat

/-- One round of the loop over the array. A fault ends the whole read, whatever follows in the text. -/
def visitCandidate (policy : CandidateOutputPolicy) (received : Received) (candidate : Text) : Except CandidateOutputError Received := do
  require (received.candidates.length ≠ policy.expectedCount) .countMismatch
  let byteCount := byteLen candidate
  require (byteCount ≤ policy.maximumCandidateBytes) .candidateTooLarge
  let nextAggregateBytes ← checkedAggregateByteCount received.aggregateBytes byteCount
  require (nextAggregateBytes ≤ policy.maximumAggregateCandidateBytes) .aggregateTooLarge
  let ordinal := received.candidates.length
  require (ordinal < 2 ^ 8) .invalidEnvelope
  .ok ⟨received.candidates ++ [⟨ordinal, candidate⟩], nextAggregateBytes⟩

def readItem : Json.Reader CandidateOutputError Text :=
  Json.readSole .invalidEnvelope "text".toList (Json.readString .invalidEnvelope)

def readSequence (policy : CandidateOutputPolicy) : Json.Reader CandidateOutputError Received :=
  Json.readArray .invalidEnvelope readItem (visitCandidate policy) ⟨[], 0⟩

def readEnvelope (policy : CandidateOutputPolicy) : Json.Reader CandidateOutputError Received :=
  Json.readSole .invalidEnvelope "candidates".toList (readSequence policy)

def parse (scanner : Json.Scanner) (bytes : Bytes) (policy : CandidateOutputPolicy) : Except CandidateOutputError (List GenerationCandidate) := do
  let policy ← CandidateOutputPolicy.new policy.expectedCount policy.maximumCandidateBytes policy.maximumAggregateCandidateBytes
  require (bytes.length ≤ policy.maximumEnvelopeBytes) .envelopeTooLarge
  match decode bytes with
  | .error _ => .error .invalidUtf8
  | .ok input => do
      let (received, rest) ← readEnvelope policy (scanner.scan input)
      require (rest = []) .invalidEnvelope
      require (received.candidates.length = policy.expectedCount) .countMismatch
      .ok received.candidates

end CandidateOutput

end Retonr
