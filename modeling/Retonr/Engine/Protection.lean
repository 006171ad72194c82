import Retonr.Engine.Extract
import Retonr.Types.Document
import Retonr.Types.TextSafety

/-! Protected values replaced by sentinels. A plan masks the protected spans of a
source, maps a raw candidate to the same sentinels, and restores a masked
candidate to the exact source surfaces. -/

namespace Retonr
open Text Extract

structure ProtectedValue where
  (token surface : Text)
  kind : ProtectedKind

/-- The source with its protected values masked, and the typed literals it had. -/
structure ProtectionPlan where
  maskedSource : Text
  values : List ProtectedValue
  typedCounts : Multiset (ProtectedKind × Text)

def zeroPadded (width value : Nat) : Text :=
  List.replicate (width - (decimal value).length) '0' ++ decimal value

def sentinelOpening : Text := ['\x7b', '\x7b', 'P', 'R', 'O', 'T', 'E', 'C', 'T', 'E', 'D', '_']

def sentinelClosing : Text := ['\x7d', '\x7d']

def sentinelToken (kind : ProtectedKind) (ordinal : Nat) : Text :=
  sentinelOpening ++ kind.tokenLabel ++ ['_'] ++ zeroPadded 4 ordinal ++ sentinelClosing

/-- The pattern `\{\{PROTECTED_[A-Z_]+_\d{4}\}\}`. -/
def sentinelPattern (unicode : Unicode) : Regex :=
  .seq (Regex.literal sentinelOpening) (.seq (Regex.plus (.chars fun char => char.isUpper || char == '_'))
    (.seq (Regex.literal ['_']) (.seq (Regex.times 4 (.chars unicode.decimalDigit)) (Regex.literal sentinelClosing))))

def sentinelMatcher (unicode : Unicode) : Matcher := Matcher.ofRegex (sentinelPattern unicode)

def isDisallowedPolicyCharacter (char : Char) : Bool :=
  let code := char.toNat
  TextSafety.isControl char || code == 0x061C || (0x200B ≤ code && code ≤ 0x200F) || (0x2028 ≤ code && code ≤ 0x202E) ||
    (0x2060 ≤ code && code ≤ 0x206F) || code == 0xFEFF

def protectedTermsAreValid (terms : List Text) : Bool :=
  terms.length ≤ maxProtectedTerms &&
    terms.all (fun term => !term.isEmpty && byteLen term ≤ maxProtectedTermBytes && !term.any isDisallowedPolicyCharacter) &&
    terms.Nodup && (terms.map byteLen).sum ≤ maxProtectedTermTotalBytes

/-- The length after the edits, when no step under- or overflows. -/
def editedLength (length : Nat) (edits : List (Nat × Nat × Text)) : Option Nat :=
  edits.foldlM (fun length edit =>
    let (start, stop, substitute) := edit
    if length < stop - start then none
    else if usizeLimit ≤ length - (stop - start) + byteLen substitute then none
    else some (length - (stop - start) + byteLen substitute)) length

def applyEdits (text : Text) (edits : List (Nat × Nat × Text)) : Except ProtectionError Text :=
  match (editedLength (byteLen text) edits).filter (· ≤ maxProtectedTextBytes) with
  | none => .error .resourceLimit
  | some _ => .ok (Scan.splice text 0 edits)

namespace ProtectionPlan

variable (unicode : Unicode)

/-- The tokens issued for one surface, in source order. -/
def tokensFor (plan : ProtectionPlan) (surface : Text) : List Text :=
  (plan.values.filter (·.surface == surface)).map ProtectedValue.token

/-- The distinct surfaces, which are the patterns of the multi-pattern search. -/
def patterns (plan : ProtectionPlan) : List Text := (plan.values.map ProtectedValue.surface).dedup

/-- The loop over the matched surfaces: the next unused token of each is assigned. -/
def assignTokens (plan : ProtectionPlan) (typedSpans : List MatchSpan) :
    CountMap Text → List Hit → Except ProtectionError (List (Nat × Nat × Text) × CountMap Text)
  | matched, [] => .ok ([], matched)
  | matched, hit :: hits =>
      match (plan.tokensFor hit.surface)[matched.count hit.surface]? with
      | none => .error .protectedOccurrenceCount
      | some token =>
          match plan.values.find? (·.token == token) with
          | none => .error .matcherBuild
          | some value =>
              if value.kind ≠ .declaredTerm ∧ isExactTypedSpan typedSpans hit.start hit.stop value.kind = false then
                .error .protectedOccurrenceCount
              else do
                let (replacements, final) ← assignTokens plan typedSpans (matched.increment hit.surface) hits
                .ok ((hit.start, hit.stop, token) :: replacements, final)

def maskRawCandidate (plan : ProtectionPlan) (candidate : Text) : Except ProtectionError Text :=
  if maxProtectedTextBytes < byteLen candidate ∨ maxProtectedOccurrences < plan.values.length then .error .resourceLimit
  else if Scan.isMatch (sentinelMatcher unicode) candidate then .error .unknownSentinel
  else do
    let typedSpans ← selectedTypedSpans unicode candidate
    if surfacesOf candidate typedSpans ≠ plan.typedCounts then .error .protectedOccurrenceCount
    else if plan.values = [] then .ok candidate
    else do
      let (replacements, matched) ←
        plan.assignTokens typedSpans [] (Scan.scan (Matcher.longestOf plan.patterns) candidate)
      if plan.patterns.any fun surface => (plan.tokensFor surface).length != matched.count surface then
        .error .protectedOccurrenceCount
      else applyEdits candidate replacements

/-- The loop over the sentinels of a candidate: each must be issued and unused. -/
def indexSentinels (plan : ProtectionPlan) : List Nat → List Hit → Except ProtectionError (List (Nat × Nat × Nat) × List Nat)
  | seen, [] => .ok ([], seen)
  | seen, hit :: hits =>
      match plan.values.findIdx? (·.token == hit.surface) with
      | none => .error .unknownSentinel
      | some index =>
          if index ∈ seen then .error .sentinelOccurrenceCount
          else do
            let (indexed, final) ← indexSentinels plan (index :: seen) hits
            .ok ((hit.start, hit.stop, index) :: indexed, final)

def indexedSentinelMatches (plan : ProtectionPlan) (candidate : Text) : Except ProtectionError (List (Nat × Nat × Nat)) :=
  if maxProtectedTextBytes < byteLen candidate ∨ maxProtectedOccurrences < plan.values.length then .error .resourceLimit
  else if ¬(plan.values.map ProtectedValue.token).Nodup then .error .sentinelOccurrenceCount
  else do
    let (indexed, seen) ← plan.indexSentinels [] (Scan.scan (sentinelMatcher unicode) candidate)
    if (List.range plan.values.length).any (· ∉ seen) then .error .sentinelOccurrenceCount else .ok indexed

def validateMasked (plan : ProtectionPlan) (candidate : Text) : Except ProtectionError Unit :=
  (plan.indexedSentinelMatches unicode candidate).map fun _ => ()

def restore (plan : ProtectionPlan) (candidate : Text) : Except ProtectionError Text := do
  let matched ← plan.indexedSentinelMatches unicode candidate
  applyEdits candidate (matched.map fun entry =>
    (entry.1, entry.2.1, (plan.values[entry.2.2]?.map ProtectedValue.surface).getD []))

def issueValues (source : Text) (selected : List MatchSpan) : List ProtectedValue :=
  selected.zipIdx.map fun entry =>
    { token := sentinelToken entry.1.kind (entry.2 + 1)
      surface := slice source entry.1.start entry.1.stop
      kind := entry.1.kind }

def build (source : Text) (declaredTerms : List Text) : Except ProtectionError ProtectionPlan :=
  if maxProtectedTextBytes < byteLen source then .error .resourceLimit
  else if protectedTermsAreValid declaredTerms = false then .error .invalidDeclaredTerms
  else if Scan.isMatch (sentinelMatcher unicode) source then .error .reservedTokenInSource
  else do
    let selected ← selectNonOverlapping (← collectSourceSpans unicode source declaredTerms)
    let typedCounts ← Extract.typedCounts unicode source
    let values := issueValues source selected
    let masked := Scan.splice source 0 (List.zipWith (fun span value => (span.start, span.stop, value.token)) selected values)
    if maxProtectedTextBytes < byteLen masked then .error .resourceLimit
    else
      let plan : ProtectionPlan := { maskedSource := masked, values, typedCounts }
      match plan.maskRawCandidate unicode source with
      | .ok remasked => if remasked = plan.maskedSource then .ok plan else .error .ambiguousSurfaceMapping
      | .error .protectedOccurrenceCount => .error .ambiguousSurfaceMapping
      | .error fault => .error fault

end ProtectionPlan

/-- The selected protected spans of a text, without their surfaces. -/
def protectedOccurrences (unicode : Unicode) (text : Text) (declaredTerms : List Text) : Except ProtectionError (List MatchSpan) := do
  selectNonOverlapping (← collectSourceSpans unicode text declaredTerms)

end Retonr
