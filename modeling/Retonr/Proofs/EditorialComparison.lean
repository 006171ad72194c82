import Retonr.Types.Lint

/-! The comparison of editorial findings as multisets of identities. Each loop consumes its own map,
and both match as many copies of a key as the two sides have in common. -/

namespace Retonr.EditorialComparison
open List

/-- The identities of some findings, with their multiplicities. -/
def keys (findings : List EditorialFinding) : Multiset FindingKey := ↑(findings.map EditorialFinding.key)

theorem count_findingCounts (findings : List EditorialFinding) (key : FindingKey) :
    (findingCounts findings).count key = (keys findings).count key := by
  have mapped : findingCounts findings = CountMap.tally (findings.map EditorialFinding.key) := by
    rw [findingCounts, CountMap.tally, foldl_map]
  rw [mapped, CountMap.count_tally, keys, Multiset.coe_count]

theorem consumeAll_perm (findings : List EditorialFinding) (remaining : CountMap FindingKey) :
    ((consumeAll findings remaining).2 ++ (consumeAll findings remaining).1).Perm findings := by
  induction findings generalizing remaining with
  | nil => exact List.Perm.refl _
  | cons finding rest ih =>
    simp only [consumeAll]
    split
    next fewer taken => exact (ih fewer).cons finding
    next => exact perm_middle.trans ((ih remaining).cons finding)

theorem keys_cons (finding : EditorialFinding) (rest : List EditorialFinding) : keys (finding :: rest) = finding.key ::ₘ keys rest := rfl

theorem count_unmatched (findings : List EditorialFinding) (remaining : CountMap FindingKey) (key : FindingKey) :
    (keys (consumeAll findings remaining).1).count key = (keys findings).count key - remaining.count key := by
  induction findings generalizing remaining with
  | nil => simp [consumeAll, keys]
  | cons finding rest ih =>
    simp only [consumeAll]
    split
    next fewer taken =>
      have before := CountMap.count_consume taken key
      rw [ih fewer, before, keys_cons, Multiset.count_cons]
      omega
    next refused =>
      have empty : remaining.count finding.key = 0 := (CountMap.consume_eq_none_iff remaining finding.key).mp refused
      rw [keys_cons, Multiset.count_cons, ih remaining, keys_cons, Multiset.count_cons]
      by_cases same : key = finding.key
      · simp [same, empty]
      · simp [same]

theorem keys_unmatched (findings others : List EditorialFinding) :
    keys (consumeAll findings (findingCounts others)).1 = keys findings - keys others := by
  ext key
  rw [count_unmatched, count_findingCounts, Multiset.count_sub]

theorem keys_matched (findings others : List EditorialFinding) :
    keys (consumeAll findings (findingCounts others)).2 = keys findings ∩ keys others := by
  have split : keys (consumeAll findings (findingCounts others)).2 + keys (consumeAll findings (findingCounts others)).1 = keys findings := by
    have whole := (consumeAll_perm findings (findingCounts others)).map EditorialFinding.key
    rw [map_append] at whole
    exact Multiset.coe_eq_coe.mpr whole
  rw [keys_unmatched] at split
  ext key
  have counted := congrArg (Multiset.count key) split
  rw [Multiset.count_add, Multiset.count_sub] at counted
  rw [Multiset.count_inter]
  omega

/-- The comparison splits the source findings, retains what both sides have in common and
introduces what the candidate has in excess; exchanging the sides exchanges the excesses. -/
theorem comparison_is_multiset_difference (source candidate : List EditorialFinding) :
    ((compute source candidate).retainedFindings ++ (compute source candidate).resolvedFindings).Perm source ∧
    keys (compute source candidate).retainedFindings = keys source ∩ keys candidate ∧
    keys (compute source candidate).introducedFindings = keys candidate - keys source ∧
    keys (compute candidate source).resolvedFindings = keys (compute source candidate).introducedFindings ∧
    keys (compute candidate source).introducedFindings = keys (compute source candidate).resolvedFindings := by
  refine ⟨consumeAll_perm source _, keys_matched source candidate, keys_unmatched candidate source, ?_, ?_⟩
  · exact (keys_unmatched candidate source).trans (keys_unmatched candidate source).symm
  · exact (keys_unmatched source candidate).trans (keys_unmatched source candidate).symm

theorem isEmpty_iff_keys (findings : List EditorialFinding) : findings.isEmpty = true ↔ keys findings = 0 := by
  cases findings <;> simp [keys]

theorem introduced_isEmpty_iff (source candidate : List EditorialFinding) :
    (compute source candidate).introducedFindings.isEmpty = true ↔ keys candidate ≤ keys source := by
  have excess : keys (compute source candidate).introducedFindings = keys candidate - keys source := keys_unmatched candidate source
  rw [isEmpty_iff_keys, excess, tsub_eq_zero_iff_le]

theorem isStrictImprovement_iff (source candidate : List EditorialFinding) :
    (compute source candidate).isStrictImprovement = true ↔ keys candidate < keys source := by
  have excess : keys (compute source candidate).resolvedFindings = keys source - keys candidate := keys_unmatched source candidate
  rw [isStrictImprovement, Bool.and_eq_true, Bool.not_eq_true', ← Bool.not_eq_true, isEmpty_iff_keys, excess, tsub_eq_zero_iff_le,
    introduced_isEmpty_iff, lt_iff_le_not_ge, and_comm]

-- A saturated occurrence keeps its multiplicity: one of the two copies is matched.
example :
    let first := EditorialFinding.new ['r'] ['e'] 0 ['m']
    let second := EditorialFinding.new ['r'] ['e'] 1 ['m']
    let saturated := EditorialFinding.new ['r'] ['e'] 65535 ['m']
    (compute [first, second, saturated, saturated] [second, saturated]).retainedFindings = [second, saturated] := rfl

end Retonr.EditorialComparison
