import SdkWiring.Proofs.Delegate.Alike
import SdkWiring.Proofs.Delegate.Skeleton

/-!
# What comments and strings say

Two delegates with the same skeleton are surveyed side by side: a piece of code at a time, or a gap
against a gap. Code does the same to both surveys, since levels and markers depend on code only. A
gap adds at most a space to either header, however long it is. So both surveys end up with the same
method.

* `Abreast`: two scans side by side; `Abreast.twin` for the code that comes next.
* `SameView`: two surveys that differ only in where they found the methods.
* `run_abreast`: it holds behind the whole texts.
* `sameBody_of_skeleton`: the type is found in both or in neither, and the method at the same brace.
-/

namespace SdkWiring

/-- Offsets right behind an opening brace of either text, which both have at the same place of their
skeletons. -/
def Counterparts (quoting : Quoting) (a b : Text) (m n : Nat) : Prop :=
  ∃ k : Nat, ∃ p q : Position, (outline quoting (positions quoting a))[k]? = some (some p) ∧
    (outline quoting (positions quoting b))[k]? = some (some q) ∧
    p.char = '{' ∧ q.char = '{' ∧ m = p.offset + 1 ∧ n = q.offset + 1

/-- Two scans side by side, with the same number of open braces and of code and gaps behind them. -/
structure Abreast (quoting : Quoting) (a b : Text) (xs ps ys qs : List Position) : Prop where
  left : positions quoting a = xs ++ ps
  right : positions quoting b = ys ++ qs
  depth_eq : depth '{' '}' xs = depth '{' '}' ys
  place : ∃ k, (outline quoting (positions quoting a)).drop k = outline quoting ps ∧
    (outline quoting (positions quoting b)).drop k = outline quoting qs

/-- Two surveys with the same header and flags, and with bodies that correspond. -/
structure SameView (R : Nat → Nat → Prop) (s t : Survey) : Prop where
  header : s.header = t.header
  inType : s.inType = t.inType
  typeSeen : s.typeSeen = t.typeSeen
  firstBody : Option.Rel R s.firstBody t.firstBody
  preferredBody : Option.Rel R s.preferredBody t.preferredBody

variable {r : Recipe} {quoting : Quoting} {a b : Text} {p q : Position}
  {ps qs us vs xs ys : List Position} {s t s' t' : Survey} {R : Nat → Nat → Prop} {h : Header}

/-! ### Code against code -/

namespace Abreast

/-- One position of code further. -/
theorem code (h : Abreast quoting a b xs (p :: ps) ys (q :: qs)) (hp : p.isCode quoting = true)
    (hq : q.isCode quoting = true) (hchar : p.char = q.char) :
    Abreast quoting a b (xs ++ [p]) ps (ys ++ [q]) qs where
  left := by rw [h.left, List.append_assoc, List.singleton_append]
  right := by rw [h.right, List.append_assoc, List.singleton_append]
  depth_eq := by
    have hlive : ∀ c, p.live c = q.live c := fun c => by
      rw [Position.live, Position.live, (of_isCode hp).1, (of_isCode hq).1, hchar]
    rw [depth_concat (by decide), depth_concat (by decide), hlive, hlive, h.depth_eq]
  place := by
    obtain ⟨k, hk, hk'⟩ := h.place
    refine ⟨k + 1, ?_, ?_⟩
    · rw [← List.tail_drop, hk, outline_code hp, List.tail_cons]
    · rw [← List.tail_drop, hk', outline_code hq, List.tail_cons]

/-- One gap further. -/
theorem gap (h : Abreast quoting a b xs (us ++ ps) ys (vs ++ qs)) (hus : us ≠ []) (hvs : vs ≠ [])
    (left : ∀ u ∈ us, u.isCode quoting = false) (right : ∀ v ∈ vs, v.isCode quoting = false)
    (hps : ∀ p ∈ ps.head?, p.isCode quoting = true)
    (hqs : ∀ q ∈ qs.head?, q.isCode quoting = true) :
    Abreast quoting a b (xs ++ us) ps (ys ++ vs) qs where
  left := by rw [h.left, List.append_assoc]
  right := by rw [h.right, List.append_assoc]
  depth_eq := by rw [depth_gap left, depth_gap right, h.depth_eq]
  place := by
    obtain ⟨k, hk, hk'⟩ := h.place
    refine ⟨k + 1, ?_, ?_⟩
    · rw [← List.tail_drop, hk, outline_gap hus left hps, List.tail_cons]
    · rw [← List.tail_drop, hk', outline_gap hvs right hqs, List.tail_cons]

theorem level_eq (h : Abreast quoting a b xs (p :: ps) ys (q :: qs)) (hlive : p.live '}' = q.live '}') :
    p.level = q.level := by
  have hp := level_of_split h.left
  have hq := level_of_split h.right
  have hdepth : depth '{' '}' (if p.live '}' then xs ++ [p] else xs) =
      depth '{' '}' (if q.live '}' then ys ++ [q] else ys) := by
    rw [hlive]
    split
    · rename_i hclose
      rw [depth_close (by decide) (hlive.trans hclose), depth_close (by decide) hclose, h.depth_eq]
    · exact h.depth_eq
  omega

/-- The marker of a type on the left is on the right, too. -/
theorem typeMarker (h : Abreast quoting a b xs (p :: ps) ys (q :: qs))
    (hpar : Parallel quoting (p :: ps) (q :: qs)) (hsig : p.significant = true)
    (ht : Text.isIdentifier r.typeName = true)
    (hm : (ObjectiveC.typeMarker r).matchesAt p.cursor = true) :
    (ObjectiveC.typeMarker r).matchesAt q.cursor = true := by
  obtain ⟨s, rest, hs, hne, hfore, hborder⟩ := (ObjectiveC.typeMarker_iff ht).1 hm
  have hquiet : ∀ c ∈ ObjectiveC.implementationMarker ++ (s ++ r.typeName),
      Text.isQuiet c = true := by
    intro c hc
    rcases List.mem_append.1 hc with hc | hc
    · exact (by decide : ∀ c ∈ ObjectiveC.implementationMarker, Text.isQuiet c = true) c hc
    · rcases List.mem_append.1 hc with hc | hc
      · exact Text.isQuiet_of_isSpace (hs c hc)
      · exact Text.isQuiet_of_isWord (Text.isWord_of_mem_identifier ht hc)
  have hword : p.forepart = (ObjectiveC.implementationMarker ++ (s ++ r.typeName)) ++ rest := by
    simpa [Position.forepart] using hfore
  obtain ⟨rest', hfore', hborder'⟩ := hpar.word h.left h.right hsig hquiet
    (by simp [ObjectiveC.implementationMarker_eq]) hword
  refine (ObjectiveC.typeMarker_iff ht).2 ⟨s, rest', hs, hne, ?_, hborder' hborder⟩
  simpa [Position.forepart] using hfore'

/-- So is an end marker. -/
theorem endMarker (h : Abreast quoting a b xs (p :: ps) ys (q :: qs))
    (hpar : Parallel quoting (p :: ps) (q :: qs)) (hsig : p.significant = true)
    (hm : ObjectiveC.endMarker.isPrefixOf p.forepart = true) :
    ObjectiveC.endMarker.isPrefixOf q.forepart = true := by
  rw [List.isPrefixOf_iff_prefix] at hm ⊢
  obtain ⟨rest, hfore⟩ := hm
  obtain ⟨rest', hfore', -⟩ := hpar.word h.left h.right hsig (by decide)
    (by simp [ObjectiveC.endMarker_eq]) hfore.symm
  exact ⟨rest', hfore'.symm⟩

theorem symm (h : Abreast quoting a b xs ps ys qs) : Abreast quoting b a ys qs xs ps where
  left := h.right
  right := h.left
  depth_eq := h.depth_eq.symm
  place := by
    obtain ⟨k, hk, hk'⟩ := h.place
    exact ⟨k, hk', hk⟩

/-- **Rules look at code in the same way on both sides.** -/
theorem twin (h : Abreast r.language.quoting a b xs (p :: ps) ys (q :: qs))
    (hpar : Parallel r.language.quoting (p :: ps) (q :: qs))
    (ht : r.language = .objectiveC → Text.isIdentifier r.typeName = true)
    (hp : p.isCode r.language.quoting = true) (hq : q.isCode r.language.quoting = true)
    (hchar : p.char = q.char) : Twin r p q := by
  obtain ⟨hsig, hopen⟩ := of_isCode hp
  obtain ⟨hsig', hopen'⟩ := of_isCode hq
  refine ⟨hchar, hsig.trans hsig'.symm, h.level_eq ?_, hopen.trans hopen'.symm, fun hl => ?_,
    fun _ => ?_⟩
  · rw [Position.live, Position.live, hsig, hsig', hchar]
  · exact Bool.eq_iff_iff.2
      ⟨h.typeMarker hpar hsig (ht hl), h.symm.typeMarker hpar.symm hsig' (ht hl)⟩
  · exact Bool.eq_iff_iff.2 ⟨h.endMarker hpar hsig, h.symm.endMarker hpar.symm hsig'⟩

/-- What comes next on both sides stands at the same place of both skeletons. -/
theorem counterparts (h : Abreast quoting a b xs (p :: ps) ys (q :: qs))
    (hp : p.isCode quoting = true) (hq : q.isCode quoting = true) (hbrace : p.char = '{')
    (hbrace' : q.char = '{') : Counterparts quoting a b (p.offset + 1) (q.offset + 1) := by
  obtain ⟨k, hk, hk'⟩ := h.place
  refine ⟨k, p, q, ?_, ?_, hbrace, hbrace', rfl, rfl⟩
  · rw [← List.head?_drop, hk, outline_code hp, List.head?_cons]
  · rw [← List.head?_drop, hk', outline_code hq, List.head?_cons]

end Abreast

theorem rel_or {m m' n n' : Option Nat} (h : Option.Rel R m n) (h' : Option.Rel R m' n') :
    Option.Rel R (m.or m') (n.or n') := by
  cases h with
  | none => exact h'
  | some h => exact .some h

/-- The same code changes both surveys in the same way. -/
theorem SameView.survey (v : SameView R s t) (w : Twin r p q)
    (hR : p.char = '{' → R (p.offset + 1) (q.offset + 1)) :
    SameView R (r.survey s p) (r.survey t q) := by
  have henter : (s.inType && r.opensMethod s.header p) =
      (t.inType && r.opensMethod t.header q) := by
    rw [v.inType, v.header, w.opensMethod]
  have hnew : ∀ f : Bool, Option.Rel R
      (if (t.inType && r.opensMethod t.header q) && f then some (p.offset + 1) else none)
      (if (t.inType && r.opensMethod t.header q) && f then some (q.offset + 1) else none) := by
    intro f
    split
    · rename_i hm
      rw [← henter, Bool.and_eq_true, Bool.and_eq_true] at hm
      exact .some (hR (Recipe.Enters.char_eq ⟨hm.1.1, hm.1.2⟩))
    · exact .none
  constructor
  · exact (w.next _).trans (congrArg (Header.next · q) v.header)
  · simp only [Recipe.survey, v.inType, v.header, w.opensType, w.closesType]
  · simp only [Recipe.survey, v.typeSeen, v.header, w.opensType]
  · simp only [Recipe.survey, henter]
    have hfirst := hnew true
    rw [Bool.and_true] at hfirst
    exact rel_or v.firstBody hfirst
  · simp only [Recipe.survey, henter]
    rw [v.header]
    exact rel_or v.preferredBody (hnew _)

/-! ### A gap against a gap -/

/-- A header with a space behind it, if there is none yet. -/
def Header.space (h : Header) : Header :=
  if h.reversed.head? = some ' ' then h else ⟨' ' :: h.reversed⟩

theorem Header.space_space (h : Header) : h.space.space = h.space := by
  unfold Header.space
  by_cases hspace : h.reversed.head? = some ' ' <;> simp [hspace]

/-- Any character of a gap counts for a space. -/
theorem next_gap (hp : p.isCode quoting = false) (h : Header) : h.next p = h.space := by
  have hends : p.endsHeader = false := by
    have hbrace := not_live_of_gap (c := '{') hp (by decide)
    have hclose := not_live_of_gap (c := '}') hp (by decide)
    have hsemi := not_live_of_gap (c := ';') hp (by decide)
    simp only [Position.live] at hbrace hclose hsemi
    rw [Position.endsHeader, Bool.and_or_distrib_left, Bool.and_or_distrib_left, hbrace, hclose,
      hsemi]
    rfl
  have hplain : p.isPlain = false := by
    cases quoting with
    | c => rw [p.isPlain_eq_isCode_c, hp]
    | swift => rw [p.isPlain_eq_isCode, hp, Bool.false_and]
  rw [Header.next, hends, if_neg (by decide), Header.record, hplain, if_neg (by decide)]
  rfl

/-- A survey behind a gap that has begun. -/
structure Spaced (s t : Survey) : Prop where
  header : t.header.space = s.header.space
  inType : t.inType = s.inType
  typeSeen : t.typeSeen = s.typeSeen
  firstBody : t.firstBody = s.firstBody
  preferredBody : t.preferredBody = s.preferredBody

/-- Nothing is entered or left in a gap. -/
theorem Spaced.survey (w : Spaced s t) (hp : p.isCode quoting = false) :
    Spaced s (r.survey t p) := by
  have hopen := not_live_of_gap (c := '{') hp (by decide)
  have hclose := not_live_of_gap (c := '}') hp (by decide)
  have hmark : ∀ w : Text, p.significant = true → w.head? = some '@' → ¬ w <+: p.forepart := by
    rintro w hsig hw ⟨rest, hrest⟩
    obtain ⟨w, rfl⟩ := List.head?_eq_some_iff.1 hw
    have hat := not_live_of_gap (c := '@') hp (by decide)
    rw [Position.live, hsig, (List.cons.inj hrest).1.symm] at hat
    exact absurd hat (by decide)
  -- what opens or closes something is live, and nothing in a gap is
  have htype : r.opensType t.header p = false := by
    unfold Recipe.opensType
    cases r.language with
    | swift => simp [hopen]
    | objectiveC =>
      rw [← Bool.not_eq_true]
      intro hm
      simp only [Bool.and_eq_true] at hm
      exact hmark _ hm.1.1 rfl
        (List.isPrefixOf_iff_prefix.1 (ObjectiveC.marker_of_typeMarker r p hm.2))
  have hends : r.closesType p = false := by
    unfold Recipe.closesType
    cases r.language with
    | swift => simp [hclose]
    | objectiveC =>
      rw [← Bool.not_eq_true]
      intro hm
      simp only [Bool.and_eq_true] at hm
      exact hmark _ hm.1.1 rfl (List.isPrefixOf_iff_prefix.1 hm.2)
  have hmethod : r.opensMethod t.header p = false := by simp [Recipe.opensMethod, hopen]
  constructor
  · rw [← w.header, ← Header.space_space t.header]
    exact congrArg Header.space (next_gap hp t.header)
  · simp [Recipe.survey, htype, hends, w.inType]
  · simp [Recipe.survey, htype, w.typeSeen]
  · simp [Recipe.survey, hmethod, w.firstBody]
  · simp [Recipe.survey, hmethod, w.preferredBody]

/-- **A gap of any length** leaves one space behind. -/
theorem run_gap (hus : us ≠ []) (hgap : ∀ u ∈ us, u.isCode quoting = false) :
    Spaced s (r.run s us) ∧ (r.run s us).header = s.header.space := by
  have hspaced : ∀ ws : List Position, (∀ u ∈ ws, u.isCode quoting = false) →
      Spaced s (r.run s ws) := fun ws hws =>
    Recipe.run_induction ⟨rfl, rfl, rfl, rfl, rfl⟩ fun t u hu w => w.survey (hws u hu)
  refine ⟨hspaced us hgap, ?_⟩
  -- the header itself has the space since the last position of the gap
  obtain ⟨ws, u, rfl⟩ := (List.eq_nil_or_concat' us).resolve_left hus
  have hws := hspaced ws fun v hv => hgap v (by simp [hv])
  rw [Recipe.run_append, Recipe.run_cons, Recipe.run_nil, ← hws.header]
  exact next_gap (hgap u (by simp)) _

theorem SameView.gap (v : SameView R s t) (w : Spaced s s') (w' : Spaced t t')
    (hs : s'.header = s.header.space) (ht : t'.header = t.header.space) : SameView R s' t' where
  header := by rw [hs, ht, v.header]
  inType := by rw [w.inType, w'.inType, v.inType]
  typeSeen := by rw [w.typeSeen, w'.typeSeen, v.typeSeen]
  firstBody := by
    rw [w.firstBody, w'.firstBody]
    exact v.firstBody
  preferredBody := by
    rw [w.preferredBody, w'.preferredBody]
    exact v.preferredBody

/-! ### Whole texts -/

/-- **Surveys of parallel positions** keep to the same view. -/
theorem run_abreast (ht : r.language = .objectiveC → Text.isIdentifier r.typeName = true)
    (hpar : Parallel r.language.quoting ps qs)
    (h : Abreast r.language.quoting a b xs ps ys qs)
    (v : SameView (Counterparts r.language.quoting a b) s t) :
    SameView (Counterparts r.language.quoting a b) (r.run s ps) (r.run t qs) := by
  induction hpar generalizing xs ys s t with
  | nil => exact v
  | code hp hq hchar rest ih =>
    have w := h.twin (.code hp hq hchar rest) ht hp hq hchar
    exact ih (h.code hp hq hchar) (v.survey w fun hbrace =>
      h.counterparts hp hq hbrace (hchar.symm.trans hbrace))
  | gap hus hvs left right hps hqs _ ih =>
    obtain ⟨w, hs⟩ := run_gap (s := s) (r := r) hus left
    obtain ⟨w', hs'⟩ := run_gap (s := t) (r := r) hvs right
    rw [Recipe.run_append, Recipe.run_append]
    exact ih (h.gap hus hvs left right hps hqs) (v.gap w w' hs hs')

/-- **What comments and strings say never decides where the call goes.** In two delegates with the
same skeleton the type is found in both or in neither, and the method is found in neither or right
behind the same brace of the skeleton. -/
theorem sameBody_of_skeleton
    (ht : r.language = .objectiveC → Text.isIdentifier r.typeName = true)
    (h : skeleton r.language.quoting a = skeleton r.language.quoting b) :
    (r.analyze a).typeFound = (r.analyze b).typeFound ∧
      Option.Rel (Counterparts r.language.quoting a b) (r.analyze a).methodBody
        (r.analyze b).methodBody := by
  have hstart : Abreast r.language.quoting a b [] (positions r.language.quoting a) []
      (positions r.language.quoting b) := ⟨rfl, rfl, rfl, 0, rfl, rfl⟩
  have v : SameView (Counterparts r.language.quoting a b) (r.surveyed a) (r.surveyed b) :=
    run_abreast ht (parallel_of_outline h) hstart ⟨rfl, rfl, rfl, .none, .none⟩
  rw [Recipe.analyze_eq, Recipe.analyze_eq]
  exact ⟨v.typeSeen, rel_or v.preferredBody v.firstBody⟩

/-- A delegate with a comment and a literal. -/
def quiet : Text :=
  "@implementation AppDelegate\n/* start */- (id)application \x7b log('a'); \x7d\n@end\n".toList

/-- A delegate with the same skeleton, the comment of which speaks of the end of the section, with
braces in a string. -/
def misleading : Text :=
  "@implementation AppDelegate\n// @end \x7b\n- (id)application \x7b log(\"\x7d \x7b\"); \x7d\n".toList
    ++ "@end\n".toList

/-- The method of both is behind their first live brace. -/
theorem sameBody_of_skeleton_misleading :
    ((Recipe.forRemoval .objectiveC).language = .objectiveC →
      Text.isIdentifier (Recipe.forRemoval .objectiveC).typeName = true) ∧
    skeleton .c quiet = skeleton .c misleading ∧
    ((Recipe.forRemoval .objectiveC).analyze quiet).typeFound =
      ((Recipe.forRemoval .objectiveC).analyze misleading).typeFound ∧
    Option.Rel (Counterparts .c quiet misleading)
      ((Recipe.forRemoval .objectiveC).analyze quiet).methodBody
      ((Recipe.forRemoval .objectiveC).analyze misleading).methodBody ∧
    ((Recipe.forRemoval .objectiveC).analyze quiet).methodBody.isSome = true := by
  have hname : Text.isIdentifier (Recipe.forRemoval .objectiveC).typeName = true := by decide
  have hskeleton : skeleton .c quiet = skeleton .c misleading := by decide
  obtain ⟨htype, hbody⟩ := sameBody_of_skeleton (r := .forRemoval .objectiveC) (fun _ => hname)
    hskeleton
  exact ⟨fun _ => hname, hskeleton, htype, hbody, by decide +kernel⟩

end SdkWiring
