import SdkWiring.Proofs.Delegate.Step
import SdkWiring.Proofs.Text.Identifier
import SdkWiring.Proofs.Text.Parts

/-!
# What types and methods are recognised by

The marker of an Objective-C type depends on the text behind it only. A header is searched, so text
before the header matters only if a match starts in it.

* `ObjectiveC.typeMarker_text`: the text of a type marker.
* `Swift.typeHeader_prepend`, `ObjectiveC.methodHeader_append`: headers with text before them.
-/

namespace SdkWiring

open Pattern

variable {r : Recipe} {b a x y z t : Text}

namespace ObjectiveC

/-- **The text of a type marker**: the marker, white space and the name, at whose end a word ends or
starts. -/
theorem typeMarker_text : (typeMarker r).matchesAt ⟨b, a⟩ = true ↔
    ∃ s rest, (∀ c ∈ s, Text.isSpace c = true) ∧ s ≠ [] ∧
      a = implementationMarker ++ (s ++ (r.typeName ++ rest)) ∧
      ((s ++ r.typeName).getLast?.any Text.isWord != rest.head?.any Text.isWord) = true := by
  have hlast : ∀ (d : Char) (s b : Text), (r.typeName.reverse ++ (s.reverse ++ d :: b)).head? =
      (d :: s ++ r.typeName).getLast? := by
    intro d s b
    rw [← List.head?_reverse]
    simp [List.head?_append]
  simp only [matchesAt_iff, typeMarker, mem_append, mem_literal, mem_many1, mem_border,
    Cursor.advance]
  constructor
  · rintro ⟨-, -, ⟨-, ⟨-, ⟨-, rfl, rfl⟩, d, s, -, rfl, hs, rfl⟩, rest, rfl, rfl⟩, hb, rfl⟩
    refine ⟨d :: s, rest, hs, by simp, by simp, ?_⟩
    rw [← hlast d s (implementationMarker.reverse ++ b)]
    simpa using hb
  · rintro ⟨s, rest, hs, hne, rfl, hb⟩
    obtain ⟨d, s, rfl⟩ := List.exists_cons_of_ne_nil hne
    refine ⟨_, _, ⟨_, ⟨_, ⟨_, rfl, rfl⟩, d, s, _, rfl, hs, rfl⟩, rest, rfl, rfl⟩, ?_, rfl⟩
    rw [← hlast d s (implementationMarker.reverse ++ b)] at hb
    simpa using hb

/-- Behind a name that is an identifier, no word goes on. -/
theorem typeMarker_iff (ht : Text.isIdentifier r.typeName = true) :
    (typeMarker r).matchesAt ⟨b, a⟩ = true ↔ ∃ s rest, (∀ c ∈ s, Text.isSpace c = true) ∧ s ≠ [] ∧
      a = implementationMarker ++ (s ++ (r.typeName ++ rest)) ∧
      rest.head?.any Text.isWord = false := by
  obtain ⟨n, c, hn, hc⟩ := Text.exists_last_of_identifier ht
  rw [typeMarker_text]
  simp [hn, hc, ← List.append_assoc]

theorem typeMarker_before (ht : Text.isIdentifier r.typeName = true) (b b' : Text) :
    (typeMarker r).matchesAt ⟨b, a⟩ = (typeMarker r).matchesAt ⟨b', a⟩ := by
  rw [Bool.eq_iff_iff, typeMarker_iff ht, typeMarker_iff ht]

/-- No character of a marker and the name behind it is a brace. -/
theorem typeMarker_stop (ht : Text.isIdentifier r.typeName = true) :
    (typeMarker r).matchesAt ⟨b, x ++ '{' :: y⟩ = (typeMarker r).matchesAt ⟨b, x ++ '{' :: z⟩ := by
  have key : ∀ {y z : Text}, (typeMarker r).matchesAt ⟨b, x ++ '{' :: y⟩ = true →
      (typeMarker r).matchesAt ⟨b, x ++ '{' :: z⟩ = true := by
    intro y z h
    rw [typeMarker_iff ht] at h ⊢
    obtain ⟨s, rest, hs, hne, hx, hb⟩ := h
    have hstop : '{' ∉ implementationMarker ++ (s ++ r.typeName) := by
      simp only [List.mem_append, not_or]
      exact ⟨by decide, fun h => absurd (hs _ h) (by decide),
        fun h => absurd (Text.isWord_of_mem_identifier ht h) (by decide)⟩
    have hpre := (Text.prefix_append_stop hstop).1 ⟨rest, by rw [hx]; simp⟩
    obtain ⟨u, rfl⟩ := hpre
    have hrest : u ++ '{' :: y = rest := by
      simpa using hx
    refine ⟨s, u ++ '{' :: z, hs, hne, by simp, ?_⟩
    rw [← hrest] at hb
    cases u with
    | nil => exact hb
    | cons c u => exact hb
  exact Bool.eq_iff_iff.2 ⟨key, key⟩

/-- **The text of a method header**, from its dash to its name, as a whole word. -/
theorem methodHeader_iff : (methodHeader r).matchesAt ⟨b, a⟩ = true ↔
    ∃ s₁ args s₂ rest, (∀ c ∈ s₁ ++ s₂, Text.isSpace c = true) ∧ ')' ∉ args ∧
      a = '-' :: (s₁ ++ '(' :: (args ++ ')' :: (s₂ ++ (r.methodName ++ rest)))) ∧
      ((')' :: (s₂ ++ r.methodName)).getLast?.any Text.isWord != rest.head?.any Text.isWord)
        = true := by
  have hlast : ∀ s₂ b : Text, (r.methodName.reverse ++ (s₂.reverse ++ ')' :: b)).head? =
      (')' :: (s₂ ++ r.methodName)).getLast? := by
    intro s₂ b
    rw [← List.head?_reverse]
    simp [List.head?_append]
  have hparen : ∀ args : Text, (∀ c ∈ args, (c != ')') = true) ↔ ')' ∉ args := fun args =>
    ⟨fun h hc => by simpa using h _ hc, fun h c hc => by
      simpa using fun e : c = ')' => h (e ▸ hc)⟩
  simp only [matchesAt_iff, methodHeader, mem_append, mem_literal, mem_many, mem_few, mem_border,
    Cursor.advance, hparen]
  constructor
  · rintro ⟨-, -, ⟨-, ⟨-, ⟨-, ⟨-, ⟨-, ⟨-, ⟨-, rfl, rfl⟩, s₁, -, rfl, hs₁, rfl⟩, -, rfl, rfl⟩,
      args, -, rfl, hargs, rfl⟩, -, rfl, rfl⟩, s₂, -, rfl, hs₂, rfl⟩, rest, rfl, rfl⟩, hb, rfl⟩
    refine ⟨s₁, args, s₂, rest, ?_, hargs, by simp, ?_⟩
    · intro c hc
      rcases List.mem_append.1 hc with h | h
      · exact hs₁ c h
      · exact hs₂ c h
    · rw [← hlast]
      exact hb
  · rintro ⟨s₁, args, s₂, rest, hs, hargs, rfl, hb⟩
    rw [← hlast] at hb
    exact ⟨_, _, ⟨_, ⟨_, ⟨_, ⟨_, ⟨_, ⟨_, ⟨_, rfl, rfl⟩, s₁, _, rfl, fun c hc => hs c (by simp [hc]),
      rfl⟩, _, rfl, rfl⟩, args, _, rfl, hargs, rfl⟩, _, rfl, rfl⟩, s₂, _, rfl,
      fun c hc => hs c (by simp [hc]), rfl⟩, rest, rfl, rfl⟩, hb, rfl⟩

/-- Text without a dash makes no difference before a header. -/
theorem methodHeader_append (hdash : '-' ∉ x) :
    (methodHeader r).occursIn (x ++ t) = (methodHeader r).occursIn t := by
  rw [Bool.eq_iff_iff, occursIn_iff, occursIn_iff]
  constructor
  · rintro ⟨y, z, h, hm⟩
    rcases List.append_eq_append_iff.1 h with ⟨u, rfl, rfl⟩ | ⟨u, rfl, rfl⟩
    · exact ⟨u, z, rfl, methodHeader_iff.2 (methodHeader_iff.1 hm)⟩
    · -- a match that starts in the text before starts with a dash
      cases u with
      | nil => exact ⟨[], t, rfl, methodHeader_iff.2 (methodHeader_iff.1 hm)⟩
      | cons c u =>
        obtain ⟨_, _, _, _, _, _, ha, _⟩ := methodHeader_iff.1 hm
        obtain ⟨rfl, -⟩ := List.cons.inj ha
        exact absurd (by simp) hdash
  · rintro ⟨y, z, rfl, hm⟩
    exact ⟨x ++ y, z, by simp, methodHeader_iff.2 (methodHeader_iff.1 hm)⟩

end ObjectiveC

namespace Swift

/-- The keywords that a type header starts with. -/
def typeKeywords : List Text := ["class".toList, "extension".toList]

theorem noSpace_typeKeywords : ∀ kw ∈ typeKeywords, ∀ c ∈ kw, Text.isSpace c = false := by decide

/-- **The text of a type header**: a keyword, white space and the name, as whole words. -/
theorem typeHeader_iff (ht : Text.isIdentifier r.typeName = true) :
    (typeHeader r).occursIn t = true ↔ ∃ u kw s rest, kw ∈ typeKeywords ∧
      (∀ c ∈ s, Text.isSpace c = true) ∧ s ≠ [] ∧ t = u ++ (kw ++ (s ++ (r.typeName ++ rest))) ∧
      u.getLast?.any Text.isWord = false ∧ rest.head?.any Text.isWord = false := by
  obtain ⟨n, c, hn, hc⟩ := Text.exists_last_of_identifier ht
  have hfirst : ∀ kw ∈ typeKeywords, ∀ a : Text, (kw ++ a).head?.any Text.isWord = true := by
    intro kw hkw a
    simp only [typeKeywords, List.mem_cons, List.not_mem_nil, or_false] at hkw
    rcases hkw with rfl | rfl <;> rfl
  simp only [occursIn_iff, matchesAt_iff, typeHeader, mem_append, mem_border, mem_anyOf, mem_many1,
    mem_literal, Cursor.advance]
  constructor
  · rintro ⟨u, -, rfl, -, -, ⟨-, ⟨-, ⟨-, ⟨hb, rfl⟩, kw, hkw, -, rfl, rfl⟩, d, s, -, rfl, hs, rfl⟩,
      rest, rfl, rfl⟩, hb', rfl⟩
    refine ⟨u, kw, d :: s, rest, hkw, hs, by simp, by simp, ?_, ?_⟩
    · rw [hfirst kw hkw, List.head?_reverse] at hb
      simpa using hb
    · simpa [hn, hc] using hb'
  · rintro ⟨u, kw, s, rest, hkw, hs, hne, rfl, hb, hb'⟩
    obtain ⟨d, s, rfl⟩ := List.exists_cons_of_ne_nil hne
    refine ⟨u, _, rfl, _, _, ⟨_, ⟨_, ⟨_, ⟨?_, rfl⟩, kw, hkw, _, rfl, rfl⟩, d, s, _, rfl, hs, rfl⟩,
      rest, rfl, rfl⟩, ?_, rfl⟩
    · rw [hfirst kw hkw, List.head?_reverse, hb]
      rfl
    · simpa [hn, hc] using hb'

/-- A type header stays one when text is put before it, unless a word is joined to it. -/
theorem typeHeader_prepend (ht : Text.isIdentifier r.typeName = true)
    (hx : x.getLast?.any Text.isWord = false) (h : (typeHeader r).occursIn t = true) :
    (typeHeader r).occursIn (x ++ t) = true := by
  rw [typeHeader_iff ht] at h ⊢
  obtain ⟨u, kw, s, rest, hkw, hs, hne, rfl, hb, hb'⟩ := h
  refine ⟨x ++ u, kw, s, rest, hkw, hs, hne, by simp, ?_, hb'⟩
  rw [List.getLast?_append]
  cases hu : u.getLast? with
  | none => exact hx
  | some c => rwa [hu] at hb

/-- A type header stays one when text follows white space behind it. -/
theorem typeHeader_extend (ht : Text.isIdentifier r.typeName = true)
    (hx : x.getLast?.all Text.isSpace = true) (h : (typeHeader r).occursIn x = true) :
    (typeHeader r).occursIn (x ++ t) = true := by
  rw [typeHeader_iff ht] at h ⊢
  obtain ⟨u, kw, s, rest, hkw, hs, hne, rfl, hb, hb'⟩ := h
  refine ⟨u, kw, s, rest ++ t, hkw, hs, hne, by simp, hb, ?_⟩
  cases rest with
  | nil =>
    -- the name would end the text, but it is no white space
    obtain ⟨n, c, hn, hc⟩ := Text.exists_last_of_identifier ht
    have hspace : Text.isSpace c = true := by simpa [hn, List.getLast?_append] using hx
    rw [Text.isSpace_of_isWord hc] at hspace
    cases hspace
  | cons c rest => exact hb'

/-- Text like that of import lines: it starts with the keyword of an import, holds no keyword of a
type, and ends a line. -/
structure ImportText (w : Text) : Prop where
  starts : ∃ rest, w = "import".toList ++ ' ' :: rest
  ends : w.getLast? = some '\n'
  noKeyword : ∀ kw ∈ typeKeywords, ¬ kw <:+: w

/-- A word that is put in front of white space ends before it. -/
theorem split_word {w z : Text} {c : Char} (hw : ∀ d ∈ w, Text.isSpace d = false)
    (hc : Text.isSpace c = true) (h : w ++ x = y ++ c :: z) :
    ∃ u, y = w ++ u ∧ x = u ++ c :: z := by
  have hmem : c ∉ w := fun hm => by
    rw [hw c hm] at hc
    cases hc
  obtain ⟨u, rfl⟩ := (Text.prefix_append_stop hmem).1 ⟨x, h⟩
  exact ⟨u, rfl, by simpa using h⟩

theorem getLast?_append_cons (x y : Text) (c : Char) :
    (x ++ c :: y).getLast? = (c :: y).getLast? := by
  rw [List.getLast?_append, List.getLast?_cons]
  rfl

/-- No keyword of a type starts in an import line. -/
theorem ImportText.not_keyword {kw u v : Text} (hy : ImportText (u ++ v)) (hv : v ≠ [])
    (hkw : kw ∈ typeKeywords) (h : kw ++ x = v ++ t) : False := by
  obtain ⟨c, v, rfl⟩ := List.exists_cons_of_ne_nil hv
  have hlast := hy.ends
  rw [getLast?_append_cons, List.getLast?_eq_some_iff] at hlast
  obtain ⟨v', hv'⟩ := hlast
  rw [hv', List.append_assoc, List.singleton_append] at h
  obtain ⟨z, rfl, -⟩ := split_word (noSpace_typeKeywords kw hkw) (by decide) h
  exact hy.noKeyword kw hkw ⟨u, z ++ ['\n'], by rw [hv']; simp⟩

/-- The name of the type does not start an import line. -/
theorem ImportText.not_name (ht : Text.isIdentifier r.typeName = true)
    (hn : r.typeName ≠ "import".toList) (hy : ImportText y) (h : r.typeName ++ x = y ++ t)
    (hx : x.head?.any Text.isWord = false) : False := by
  obtain ⟨rest, rfl⟩ := hy.starts
  rw [List.append_assoc, List.cons_append] at h
  obtain ⟨u, hu, rfl⟩ := split_word (fun c hc =>
    Text.isSpace_of_isWord (Text.isWord_of_mem_identifier ht hc)) (by decide) h
  cases u with
  | nil => exact hn (by simpa using hu.symm)
  | cons c u =>
    have hword : ∀ c ∈ "import".toList, Text.isWord c = true := by decide
    have hc := hword c (by rw [hu]; simp)
    simp [hc] at hx

/-- The name of the type stands in front of an import line if white space before it starts there. -/
theorem ImportText.name_in_front (ht : Text.isIdentifier r.typeName = true)
    (hn : r.typeName ≠ "import".toList) (hy : ImportText y) {s rest v : Text}
    (hs : ∀ c ∈ s, Text.isSpace c = true) (hv : v.getLast?.any Text.isSpace = true)
    (hrest : rest.head?.any Text.isWord = false)
    (h : s ++ (r.typeName ++ rest) = v ++ (y ++ t)) :
    ∃ rest', v = s ++ (r.typeName ++ rest') ∧ rest'.head?.any Text.isWord = false := by
  obtain ⟨z, d, rfl⟩ | rfl := (List.eq_nil_or_concat' v).symm
  · have hd : Text.isSpace d = true := by simpa using hv
    rcases List.append_eq_append_iff.1 h with ⟨w, hw, hname⟩ | ⟨w, rfl, hname⟩
    · rcases List.eq_nil_or_concat' w with rfl | ⟨w, d', rfl⟩
      · exact (hy.not_name ht hn hname hrest).elim
      · rw [← List.append_assoc] at hw
        obtain ⟨rfl, hd'⟩ := List.append_inj' hw rfl
        obtain rfl := (List.cons.inj hd').1
        rw [List.append_assoc, List.singleton_append] at hname
        obtain ⟨z, rfl, rfl⟩ := split_word (fun c hc =>
          Text.isSpace_of_isWord (Text.isWord_of_mem_identifier ht hc)) hd hname
        refine ⟨z ++ [d], by simp, ?_⟩
        cases z <;> exact hrest
    · cases w with
      | nil => exact (hy.not_name ht hn hname.symm hrest).elim
      | cons c w =>
        -- the white space before the name would reach into the line
        obtain ⟨rest', rfl⟩ := hy.starts
        have hc : c = 'i' := (List.cons.inj hname).1.symm
        exact absurd (hs c (by simp)) (by rw [hc]; decide)
  · simp at hv

/-- A type header whose keyword starts in front of an import line lies in front of it. -/
theorem ImportText.header_in_front (ht : Text.isIdentifier r.typeName = true)
    (hn : r.typeName ≠ "import".toList) (hy : ImportText y) {kw s rest v : Text}
    (hkw : kw ∈ typeKeywords) (hs : ∀ c ∈ s, Text.isSpace c = true)
    (hv : v.getLast?.any Text.isSpace = true) (hrest : rest.head?.any Text.isWord = false)
    (h : kw ++ (s ++ (r.typeName ++ rest)) = v ++ (y ++ t)) :
    ∃ rest', v = kw ++ (s ++ (r.typeName ++ rest')) ∧ rest'.head?.any Text.isWord = false := by
  obtain ⟨z, d, rfl⟩ | rfl := (List.eq_nil_or_concat' v).symm
  · have hd : Text.isSpace d = true := by simpa using hv
    rw [List.append_assoc, List.singleton_append] at h
    obtain ⟨z, rfl, hz⟩ := split_word (noSpace_typeKeywords kw hkw) hd h
    obtain ⟨rest', hrest', hclear⟩ := hy.name_in_front ht hn hs (v := z ++ [d]) (by simpa using hd)
      hrest (by simpa using hz)
    exact ⟨rest', by rw [List.append_assoc, hrest'], hclear⟩
  · simp at hv

/-- A type header whose keyword starts in an import line or behind it lies behind it. -/
theorem ImportText.header_behind (ht : Text.isIdentifier r.typeName = true) (hy : ImportText y)
    {kw s rest v : Text} (hkw : kw ∈ typeKeywords) (hs : ∀ c ∈ s, Text.isSpace c = true)
    (hne : s ≠ []) (hv : (x ++ v).getLast?.any Text.isWord = false)
    (hrest : rest.head?.any Text.isWord = false)
    (h : y ++ t = v ++ (kw ++ (s ++ (r.typeName ++ rest)))) : (typeHeader r).occursIn t = true := by
  rcases List.append_eq_append_iff.1 h with ⟨w, rfl, hw⟩ | ⟨w, rfl, hw⟩
  · refine (typeHeader_iff ht).2 ⟨w, kw, s, rest, hkw, hs, hne, hw, ?_, hrest⟩
    cases w with
    | nil => rfl
    | cons c w => rwa [← List.append_assoc, getLast?_append_cons] at hv
  · by_cases hw' : w = []
    · subst hw'
      exact (typeHeader_iff ht).2 ⟨[], kw, s, rest, hkw, hs, hne, by simpa using hw.symm, rfl, hrest⟩
    · exact (hy.not_keyword hw' hkw hw).elim

/-- **A type header does not lie across an import line**, unless the type has the name of the
keyword there. -/
theorem typeHeader_across (ht : Text.isIdentifier r.typeName = true)
    (hn : r.typeName ≠ "import".toList) (hx : x.getLast?.all Text.isSpace = true)
    (hy : ImportText y) (h : (typeHeader r).occursIn (x ++ (y ++ t)) = true) :
    (typeHeader r).occursIn x = true ∨ (typeHeader r).occursIn t = true := by
  rw [typeHeader_iff ht] at h
  obtain ⟨u, kw, s, rest, hkw, hs, hne, heq, hu, hrest⟩ := h
  -- does the keyword start behind the text in front of the line, or in it?
  rcases List.append_eq_append_iff.1 heq with ⟨v, rfl, hv⟩ | ⟨v, rfl, hv⟩
  · exact .inr (hy.header_behind ht hkw hs hne hu hrest hv)
  · rcases List.eq_nil_or_concat' v with rfl | ⟨v, d, rfl⟩
    · rw [List.append_nil] at hx
      exact .inr (hy.header_behind ht (x := u) (v := []) hkw hs hne (by simpa using hu) hrest hv.symm)
    · have hd : (v ++ [d]).getLast?.any Text.isSpace = true := by
        simpa [List.getLast?_append] using hx
      obtain ⟨rest', hv', hrest'⟩ := hy.header_in_front ht hn hkw hs hd hrest hv
      exact .inl ((typeHeader_iff ht).2 ⟨u, kw, s, rest', hkw, hs, hne, by rw [hv'], hu, hrest'⟩)

end Swift

end SdkWiring
