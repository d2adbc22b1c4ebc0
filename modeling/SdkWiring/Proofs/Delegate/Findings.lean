import SdkWiring.Proofs.Delegate.Run
import SdkWiring.Proofs.Scan.OpenBraces

/-!
# What a survey has found, by sites

Which sites open a method and which are start calls is a matter of the language. What a survey makes
of them is not: it remembers the first method, the first one that is preferred, and all calls in
order. Each statement here is about one position, behind positions for which it held before.

* `Recipe.firstBody_survey`, `preferredBody_survey`: the methods.
* `Recipe.startCalls_survey`: the start calls.
-/

namespace SdkWiring.Recipe

variable {r : Recipe} {s : Survey} {xs : List Position} {p : Position}
  {opens prefers : Site → Bool} {call? : Site → Option Span}

/-- The first method that is entered stays the first. -/
theorem firstBody_survey
    (henter : (s.inType && r.opensMethod s.header p) = opens ⟨xs.reverse, p⟩)
    (h : s.firstBody = ((sites xs).filter opens).head?.map fun b => b.position.offset + 1) :
    (r.survey s p).firstBody =
      ((sites (xs ++ [p])).filter opens).head?.map fun b => b.position.offset + 1 := by
  simp only [survey, henter, h, sites_concat, List.filter_append, List.head?_append, Option.map_or]
  by_cases hopen : opens ⟨xs.reverse, p⟩ = true <;> simp [hopen]

/-- So does the first one that is preferred. -/
theorem preferredBody_survey
    (henter : (s.inType && r.opensMethod s.header p) = opens ⟨xs.reverse, p⟩)
    (hlabel : s.header.text.contains Survey.preferredLabel = prefers ⟨xs.reverse, p⟩)
    (h : s.preferredBody =
      (((sites xs).filter opens).find? prefers).map fun b => b.position.offset + 1) :
    (r.survey s p).preferredBody =
      (((sites (xs ++ [p])).filter opens).find? prefers).map fun b => b.position.offset + 1 := by
  simp only [survey, henter, hlabel, h, sites_concat, List.filter_append, List.find?_append,
    Option.map_or]
  by_cases hopen : opens ⟨xs.reverse, p⟩ = true <;>
    by_cases hpref : prefers ⟨xs.reverse, p⟩ = true <;> simp [hopen, hpref]

/-- A start call is noted where one stands behind the position that enters or leaves a method. -/
theorem startCalls_survey
    (hcall : call? ⟨xs.reverse, p⟩ = if (r.survey s p).inMethod then r.callAt? p else none)
    (h : s.startCalls = (sites xs).filterMap call?) :
    (r.survey s p).startCalls = (sites (xs ++ [p])).filterMap call? := by
  have hnew : (r.survey s p).startCalls = s.startCalls ++ (call? ⟨xs.reverse, p⟩).toList := by
    rw [hcall]
    by_cases hin : (r.survey s p).inMethod = true
    · rw [if_pos hin]
      exact congrArg (s.startCalls ++ ·) (if_pos hin)
    · rw [if_neg hin]
      exact congrArg (s.startCalls ++ ·) (if_neg hin)
  rw [hnew, h, sites_concat, List.filterMap_append]
  cases hc : call? ⟨xs.reverse, p⟩ <;> simp [hc]

end SdkWiring.Recipe
