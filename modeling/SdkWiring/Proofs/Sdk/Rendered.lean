import SdkWiring.Delegate.Recipe
import SdkWiring.Operation
import Mathlib.Tactic.Common

/-!
# Integrations as text

A rendered start call is a head, the secret in quotes, and arguments that are made of few
characters. What is known about the secret is what was checked when the integration was built.

* `swiftCall_eq`, `objectiveCCall_eq`: the parts of a rendered call.
* `mem_swiftArguments`, `mem_objectiveCArguments`: the characters behind the secret.
* `Integration.Checked`: what holds of an integration that was built by an operation.
* `Integration.Checked.frameworks`: its frameworks, in their order among all frameworks.
-/

namespace SdkWiring

namespace Integration

variable {i : Integration} {c : Char}

/-- The part of a Swift start call behind its secret, but for its last character. -/
def swiftArguments (i : Integration) : Text :=
  ", withServices: [".toList
    ++ commaSeparated (i.services.map fun s => s.startClass ++ ".self".toList) ++ "]".toList

/-- The part of an Objective-C start call behind its secret, but for its last character. -/
def objectiveCArguments (i : Integration) : Text :=
  " withServices:@[".toList
    ++ commaSeparated (i.services.map fun s => "[".toList ++ s.startClass ++ " class]".toList)
    ++ "]]".toList

/-- A literal between two texts, with the quotes taken off the texts and the last character apart. -/
theorem quote_between {x x' y y' z z' secret mid : Text} {last : Char} (hx : x = x' ++ ['"'])
    (hy : y = '"' :: y') (hz : z = z' ++ [last]) : x ++ secret ++ y ++ mid ++ z =
      x' ++ '"' :: (secret ++ '"' :: (y' ++ mid ++ z' ++ [last])) := by
  subst hx hy hz
  simp

/-- **The parts of a rendered Swift call.** -/
theorem swiftCall_eq (i : Integration) : i.swiftCall =
    "MSMobileCenter.start(".toList ++ '"' :: (i.secret ++ '"' :: (i.swiftArguments ++ [')'])) := by
  unfold swiftCall swiftArguments
  exact quote_between (by decide) (by decide) (by decide)

/-- **The parts of a rendered Objective-C call.** -/
theorem objectiveCCall_eq (i : Integration) : i.objectiveCCall =
    "[MSMobileCenter start:@".toList ++
      '"' :: (i.secret ++ '"' :: (i.objectiveCArguments ++ [';'])) := by
  unfold objectiveCCall objectiveCArguments
  exact quote_between (by decide) (by decide) (by decide)

/-- Joined parts hold nothing but their own characters, commas and spaces. -/
theorem mem_commaSeparated {parts : List Text} (h : c ∈ commaSeparated parts) :
    c = ',' ∨ c = ' ' ∨ ∃ part ∈ parts, c ∈ part := by
  induction parts with
  | nil => simp [commaSeparated] at h
  | cons part parts ih =>
    cases parts with
    | nil => exact .inr (.inr ⟨part, by simp, by simpa [commaSeparated] using h⟩)
    | cons next parts =>
      have hcons : commaSeparated (part :: next :: parts) =
          part ++ (',' :: ' ' :: commaSeparated (next :: parts)) := by
        simp [commaSeparated]
      rw [hcons, List.mem_append, List.mem_cons, List.mem_cons] at h
      rcases h with h | h | h | h
      · exact .inr (.inr ⟨part, by simp, h⟩)
      · exact .inl h
      · exact .inr (.inl h)
      · rcases ih h with h | h | ⟨q, hq, h⟩
        · exact .inl h
        · exact .inr (.inl h)
        · exact .inr (.inr ⟨q, List.mem_cons_of_mem _ hq, h⟩)

/-- The characters of the arguments of a call. -/
def argumentChars : Text := ", withServices:@[]MSAnalyticsCrashesDistribute.self class".toList

theorem mem_argumentChars {render : Service → Text} {x y : Text}
    (hx : ∀ c ∈ x, c ∈ argumentChars) (hy : ∀ c ∈ y, c ∈ argumentChars)
    (hrender : ∀ s, ∀ c ∈ render s, c ∈ argumentChars) {services : List Service}
    (h : c ∈ x ++ commaSeparated (services.map render) ++ y) : c ∈ argumentChars := by
  rw [List.mem_append, List.mem_append] at h
  rcases h with (h | h) | h
  · exact hx c h
  · rcases mem_commaSeparated h with rfl | rfl | ⟨part, hpart, hc⟩
    · decide
    · decide
    · obtain ⟨s, -, rfl⟩ := List.mem_map.1 hpart
      exact hrender s c hc
  · exact hy c h

/-- **The characters behind the secret** are few. -/
theorem mem_swiftArguments (h : c ∈ i.swiftArguments) : c ∈ argumentChars :=
  mem_argumentChars (by decide) (by decide)
    (by intro s; cases s <;> decide) h

theorem mem_objectiveCArguments (h : c ∈ i.objectiveCArguments) : c ∈ argumentChars :=
  mem_argumentChars (by decide) (by decide)
    (by intro s; cases s <;> decide) h

/-- What holds of an integration that was built by an operation. -/
structure Checked (i : Integration) : Prop where
  secret : ∀ c ∈ i.secret, Operation.isUnsafe c = false
  services : ∃ chosen, i = ofServices i.secret chosen

theorem checked_of_integration {secret : Option Text} {services : List Service} {settings : Settings}
    (h : Operation.integration secret services settings = .ok (.integrate i)) : i.Checked := by
  unfold Operation.integration at h
  split at h
  · cases h
  · rename_i secret' _
    split at h
    · cases h
    · split at h
      · cases h
      · rename_i hsafe
        simp only [Bool.not_eq_true, List.any_eq_false] at hsafe
        obtain rfl := Operation.integrate.inj (Except.ok.inj h)
        exact ⟨fun c hc => by simpa using hsafe c hc, _, rfl⟩

/-- The frameworks of an integration, in their order among all frameworks. -/
theorem Checked.frameworks (h : i.Checked) :
    i.frameworks = Service.allFrameworks.filter (· ∈ i.frameworks) := by
  obtain ⟨chosen, hi⟩ := h.services
  rw [hi, Integration.frameworks]
  by_cases h₁ : Service.analytics ∈ chosen <;> by_cases h₂ : Service.crashes ∈ chosen <;>
    by_cases h₃ : Service.distribute ∈ chosen <;>
    simp only [ofServices, Service.all, List.filter, h₁, h₂, h₃, decide_true, decide_false] <;>
    decide

theorem mem_allFrameworks (i : Integration) : ∀ g ∈ i.frameworks, g ∈ Service.allFrameworks := by
  intro g hg
  rcases List.mem_cons.1 hg with rfl | hg
  · exact List.mem_cons_self
  · obtain ⟨service, -, rfl⟩ := List.mem_map.1 hg
    exact List.mem_cons_of_mem _ (List.mem_map_of_mem (Service.mem_all service))

theorem Checked.nodup_frameworks (h : i.Checked) : i.frameworks.Nodup := by
  rw [h.frameworks]
  exact List.Pairwise.filter _ (by decide : Service.allFrameworks.Nodup)

theorem frameworks_ne_nil : i.frameworks ≠ [] := List.cons_ne_nil _ _

end Integration

/-- Every framework is named after the core. -/
theorem Service.core_infix_of_mem {f : Text} (hf : f ∈ Service.allFrameworks) : Service.core <:+: f :=
  (by decide : ∀ f ∈ Service.allFrameworks, Service.core <:+: f) f hf

end SdkWiring
