import SdkWiring.Proofs.Delegate.CallPart
import SdkWiring.Proofs.Delegate.FirstMethod

/-!
# Spans of start calls

A call may run on over text that belongs to other statements, and a second call may be recognised
there. The two spans then end at the same place: what ends the first call ends the second one, too.
So two recorded spans either lie apart or end together.

* `Swift.eq_nil_of_callWords`: no call starts inside the words of another.
* `Recipe.stop_eq_of_callAt?`: two recognised calls, the second in the text of the first.
* `Recipe.start_lt_start`, `stop_eq_of_overlap`: where two recorded spans start and end.
* `Recipe.closer_of_mem`: the character in front of the end of a span.
-/

namespace SdkWiring

variable {r : Recipe} {p q : Position} {c d : Span} {content z : Text}

/-- A word does not stand behind other text where it starts, but for white space. -/
theorem Text.eq_nil_of_word {w s t : Text} (hw : isIdentifier w = true)
    (hs : ∀ x ∈ s, isSpace x = true) (ht : ∀ x ∈ t, isSpace x = true) (h : w ++ s = z ++ (w ++ t)) :
    z = [] := by
  have hspace : ∀ {s : Text}, (∀ x ∈ s, isSpace x = true) → s.countP isWord = 0 := by
    intro s hs
    refine List.countP_eq_zero.2 fun x hx hw => ?_
    have hx := hs x hx
    rw [isSpace_of_isWord hw] at hx
    cases hx
  -- all characters of the word are behind the other text, which starts with the first one of them
  have hclear : z.countP isWord = 0 := by
    have hboth := congrArg (List.countP isWord) h
    rw [List.countP_append, List.countP_append, List.countP_append, hspace hs, hspace ht] at hboth
    omega
  cases z with
  | nil => rfl
  | cons x z =>
    obtain ⟨y, hy, hyw⟩ := exists_head_of_identifier hw
    obtain ⟨n, hn⟩ := List.head?_eq_some_iff.1 hy
    rw [hn] at h
    obtain rfl := (List.cons.inj h).1
    exact absurd (List.countP_eq_zero.1 hclear y (by simp)) (by simp [hyw])

theorem Text.dot_notMem_of_isSpace {s : Text} (h : ∀ x ∈ s, isSpace x = true) : '.' ∉ s := fun hm =>
  absurd (h _ hm) (by decide)

theorem Text.dot_notMem_of_identifier {t : Text} (h : isIdentifier t = true) : '.' ∉ t := fun hm =>
  absurd (isWord_of_mem_identifier h hm) (by decide)

/-- The words of a call have one dot. -/
theorem Swift.count_dot_callWords {s₁ s₂ s₃ : Text} (hr : Text.isIdentifier r.receiver = true)
    (hs : Text.isIdentifier r.selector = true)
    (hsp : ∀ x ∈ s₁ ++ s₂ ++ s₃, Text.isSpace x = true) : (callWords r s₁ s₂ s₃).count '.' = 1 := by
  have hnone := Text.dot_notMem_of_isSpace hsp
  simp only [List.mem_append, not_or] at hnone
  simp only [callWords, List.count_append, List.count_cons_self,
    List.count_eq_zero.2 (Text.dot_notMem_of_identifier hr),
    List.count_eq_zero.2 (Text.dot_notMem_of_identifier hs), List.count_eq_zero.2 hnone.1.1,
    List.count_eq_zero.2 hnone.1.2, List.count_eq_zero.2 hnone.2]

/-- **No call starts inside the words of another.** Both have one dot, so the words before it would
have to be those of the receiver twice. -/
theorem Swift.eq_nil_of_callWords {s₁ s₂ s₃ t₁ t₂ t₃ : Text}
    (hr : Text.isIdentifier r.receiver = true) (hs : Text.isIdentifier r.selector = true)
    (hsp : ∀ x ∈ s₁ ++ s₂ ++ s₃, Text.isSpace x = true)
    (htp : ∀ x ∈ t₁ ++ t₂ ++ t₃, Text.isSpace x = true)
    (h : callWords r s₁ s₂ s₃ = z ++ callWords r t₁ t₂ t₃) : z = [] := by
  have hs₁ : ∀ x ∈ s₁, Text.isSpace x = true := fun x hx => hsp x (by simp [hx])
  have ht₁ : ∀ x ∈ t₁, Text.isSpace x = true := fun x hx => htp x (by simp [hx])
  -- what is in front of the second call lies before the dot
  have hz : '.' ∉ z := by
    have hboth := congrArg (List.count '.') h
    rw [List.count_append, count_dot_callWords hr hs hsp, count_dot_callWords hr hs htp] at hboth
    exact List.count_eq_zero.1 (by omega)
  have hleft : '.' ∉ r.receiver ++ s₁ := by
    rw [List.mem_append, not_or]
    exact ⟨Text.dot_notMem_of_identifier hr, Text.dot_notMem_of_isSpace hs₁⟩
  have hright : '.' ∉ z ++ (r.receiver ++ t₁) := by
    simp only [List.mem_append, not_or]
    exact ⟨hz, Text.dot_notMem_of_identifier hr, Text.dot_notMem_of_isSpace ht₁⟩
  have hsplit : (r.receiver ++ s₁) ++ '.' :: (s₂ ++ (r.selector ++ s₃)) =
      (z ++ (r.receiver ++ t₁)) ++ '.' :: (t₂ ++ (r.selector ++ t₃)) := by
    simpa [callWords] using h
  exact Text.eq_nil_of_word hr hs₁ ht₁ (Text.eq_of_first hleft hright hsplit)

/-- The words of a call have neither parenthesis. -/
theorem Swift.parentheses_notMem {s₁ s₂ s₃ : Text} (hr : Text.isIdentifier r.receiver = true)
    (hs : Text.isIdentifier r.selector = true)
    (hsp : ∀ x ∈ s₁ ++ s₂ ++ s₃, Text.isSpace x = true) :
    '(' ∉ callWords r s₁ s₂ s₃ ∧ ')' ∉ callWords r s₁ s₂ s₃ := by
  constructor <;> intro hx <;> rcases mem_callWords hr hs hsp hx with h | h | h <;> exact absurd h (by decide)

/-- **A Swift call in the text of another** ends with it: it starts with it, or among its arguments,
and then on the same line. -/
theorem Swift.size_eq_of_callWords {s₁ s₂ s₃ t₁ t₂ t₃ u v rest rest' : Text}
    (hr : Text.isIdentifier r.receiver = true) (hs : Text.isIdentifier r.selector = true)
    (hsp : ∀ x ∈ s₁ ++ s₂ ++ s₃, Text.isSpace x = true)
    (htp : ∀ x ∈ t₁ ++ t₂ ++ t₃, Text.isSpace x = true) (hu : '\n' ∉ u) (hv : '\n' ∉ v)
    (hrest : ')' ∉ rest.takeWhile (· != '\n')) (hrest' : ')' ∉ rest'.takeWhile (· != '\n'))
    (h : callWords r s₁ s₂ s₃ ++ '(' :: (u ++ ')' :: rest) =
      z ++ (callWords r t₁ t₂ t₃ ++ '(' :: (v ++ ')' :: rest')))
    (hz : z.size ≤ Text.size (callWords r s₁ s₂ s₃ ++ '(' :: u)) :
    Text.size (callWords r s₁ s₂ s₃ ++ '(' :: u) =
      z.size + Text.size (callWords r t₁ t₂ t₃ ++ '(' :: v) := by
  obtain ⟨hopen, -⟩ := parentheses_notMem hr hs hsp
  obtain ⟨hopen', hclose'⟩ := parentheses_notMem hr hs htp
  rcases List.append_eq_append_iff.1 h with ⟨w, rfl, hw⟩ | ⟨w, hwords, hw⟩
  · cases w with
    | nil =>
      -- the parenthesis would be the first character of the receiver
      obtain ⟨y, hy, hword⟩ := Text.exists_head_of_identifier hr
      obtain ⟨n, hn⟩ := List.head?_eq_some_iff.1 hy
      rw [callWords, hn] at hw
      obtain rfl := (List.cons.inj hw).1
      exact absurd hword (by decide)
    | cons x w =>
      obtain ⟨rfl, hargs⟩ := List.cons.inj hw
      have hargs : u ++ ')' :: rest = w ++ (callWords r t₁ t₂ t₃ ++ '(' :: (v ++ ')' :: rest')) :=
        hargs
      obtain ⟨u', rfl, hu'⟩ := Text.split_of_size hargs (by
        simp only [Text.size_append, Text.size_cons] at hz
        omega)
      -- the words of the second call lie in front of the parenthesis that ends the first one
      have hhead : ')' ∉ callWords r t₁ t₂ t₃ ++ ['('] := by
        rw [List.mem_append, not_or]
        exact ⟨hclose', by decide⟩
      have hpre : callWords r t₁ t₂ t₃ ++ ['('] <+: u' := by
        refine (Text.prefix_append_stop (y := rest) hhead).1 ⟨v ++ ')' :: rest', ?_⟩
        rw [hu']
        simp
      obtain ⟨u'', rfl⟩ := hpre
      have htail : u'' ++ ')' :: rest = v ++ ')' :: rest' := by simpa using hu'
      have hline : '\n' ∉ u'' := fun hn => hu (by simp [hn])
      obtain rfl := last_unique htail hline hv hrest hrest'
      simp only [Text.size_append, Text.size_cons, Text.size_nil]
      omega
  · have hin : '(' ∉ w := fun hm => hopen (hwords ▸ List.mem_append_right _ hm)
    obtain rfl : callWords r t₁ t₂ t₃ = w := Text.eq_of_first hopen' hin hw
    obtain rfl := eq_nil_of_callWords hr hs hsp htp hwords
    have htail : u ++ ')' :: rest = v ++ ')' :: rest' := by simpa using hw.symm
    obtain rfl := last_unique htail hu hv hrest hrest'
    rw [hwords, List.nil_append, Text.size_nil, Nat.zero_add]

namespace Recipe

/-- **Two recognised calls, the second in the text of the first**, end at the same place. -/
theorem stop_eq_of_callAt? (hr : Text.isIdentifier r.receiver = true)
    (hs : Text.isIdentifier r.selector = true) (hbefore : q.before = z.reverse ++ p.before)
    (hfore : p.forepart = z ++ q.forepart) (hp : r.callAt? p = some c) (hq : r.callAt? q = some d)
    (hlt : q.offset < c.stop) : c.stop = d.stop := by
  have hoff : q.offset = p.offset + z.size := by
    rw [Position.offset, hbefore, Text.size_append, Text.size_reverse, Nat.add_comm]
    rfl
  have hends : '('.utf8Size = 1 ∧ ')'.utf8Size = 1 ∧ ';'.utf8Size = 1 := by decide
  cases hl : r.language with
  | swift =>
    obtain ⟨-, -, s₁, s₂, s₃, u, rest, hsp, hpfore, hu, hrest, rfl⟩ :=
      (Swift.callAt?_eq_some hl hs).1 hp
    obtain ⟨-, -, t₁, t₂, t₃, v, rest', htp, hqfore, hv, hrest', rfl⟩ :=
      (Swift.callAt?_eq_some hl hs).1 hq
    rw [hpfore, hqfore] at hfore
    simp only [hoff, Text.size_append, Text.size_cons, Text.size_nil, hends] at hlt ⊢
    have hsize := Swift.size_eq_of_callWords hr hs hsp htp hu hv hrest hrest' hfore (by
      simp only [Text.size_append, Text.size_cons, hends]
      omega)
    simp only [Text.size_append, Text.size_cons, hends] at hsize
    omega
  | objectiveC =>
    obtain ⟨-, s₁, s₂, u, rest, hsp, -, hpfore, hu, -, rfl⟩ :=
      (ObjectiveC.callAt?_eq_some hl hr hs).1 hp
    obtain ⟨-, t₁, t₂, v, rest', htp, -, hqfore, hv, -, rfl⟩ :=
      (ObjectiveC.callAt?_eq_some hl hr hs).1 hq
    -- both end at the first semicolon
    have hclear := ObjectiveC.semicolon_notMem_callWords hr hs hsp
    have hclear' := ObjectiveC.semicolon_notMem_callWords hr hs htp
    have hsplit : (ObjectiveC.callWords r s₁ s₂ ++ u) ++ ';' :: rest =
        z ++ ((ObjectiveC.callWords r t₁ t₂ ++ v) ++ ';' :: rest') := by
      rw [List.append_assoc, ← hpfore, hfore, hqfore, List.append_assoc _ v]
    simp only [hoff, Text.size_append, Text.size_cons, Text.size_nil, hends] at hlt ⊢
    obtain ⟨y, hy, hrest⟩ := Text.split_of_size hsplit (by
      simp only [Text.size_append]
      omega)
    obtain rfl : y = ObjectiveC.callWords r t₁ t₂ ++ v := by
      refine Text.eq_of_first (c := ';') (fun hm => ?_) (by simp [hclear', hv]) hrest
      have hin : ';' ∈ ObjectiveC.callWords r s₁ s₂ ++ u := hy ▸ List.mem_append_right _ hm
      simp [hclear, hu] at hin
    have hsize := congrArg Text.size hy
    simp only [Text.size_append] at hsize
    omega

/-- A call that is recognised behind another starts behind it, since only white space lies between the
start of its span and its first character. -/
theorem start_lt_start {xs ys xs' ys' : List Position} (hr : Text.isIdentifier r.receiver = true)
    (hs : Text.isIdentifier r.selector = true)
    (hps : positions r.language.quoting content = xs ++ p :: ys)
    (hqs : positions r.language.quoting content = xs' ++ q :: ys') (hlt : xs.length < xs'.length)
    (hp : r.callAt? p = some c) (hq : r.callAt? q = some d) : c.start < d.start := by
  obtain ⟨_, _, -, rfl, hspace, -⟩ := text_of_callAt? hr hs hp
  obtain ⟨_, _, -, rfl, -, -⟩ := text_of_callAt? hr hs hq
  have hstart := start_of_backpart hspace (forth_backpart hps hqs hlt)
  have hle := Survey.size_beforeIndent_le p.before
  have hpos := p.char.utf8Size_pos
  simp only [Position.backpart, Text.size_append, Text.size_reverse, Text.size_cons] at hstart
  simp only
  omega

/-- **Two recorded spans** that overlap end at the same place. -/
theorem stop_eq_of_overlap (hr : Text.isIdentifier r.receiver = true)
    (hs : Text.isIdentifier r.selector = true) (hc : c ∈ (r.analyze content).startCalls)
    (hd : d ∈ (r.analyze content).startCalls) (hle : c.start ≤ d.start) (hlt : d.start < c.stop) :
    c.stop = d.stop := by
  rw [analyze_eq] at hc hd
  rcases origin_call hc with h | ⟨xs, p, ys, hps, -, hp⟩
  · simp at h
  rcases origin_call hd with h | ⟨xs', q, ys', hqs, -, hq⟩
  · simp at h
  have hlen : xs.length ≤ xs'.length := by
    by_contra hgt
    exact absurd (start_lt_start hr hs hqs hps (by omega) hq hp) (by omega)
  obtain ⟨x, rest, hpfore, hceq, -, -⟩ := text_of_callAt? hr hs hp
  obtain ⟨_, _, -, hdeq, -, -⟩ := text_of_callAt? hr hs hq
  have hcstop := congrArg Span.stop hceq
  have hdstart := congrArg Span.start hdeq
  simp only at hcstop hdstart
  obtain ⟨hp', -, -, -⟩ := positions_split hps
  obtain ⟨hq', -, -, -⟩ := positions_split hqs
  obtain ⟨z, hz⟩ : p.backpart <+: q.backpart := by
    rcases Nat.lt_or_ge xs.length xs'.length with hlt | hge
    · exact (List.prefix_append _ _).trans (forth_backpart hps hqs hlt)
    · obtain ⟨-, htail⟩ := List.append_inj (hps.symm.trans hqs) (by omega)
      rw [(List.cons.inj htail).1]
  have hfore : p.forepart = z ++ q.forepart := by
    rw [hq', ← hz, List.append_assoc] at hp'
    exact (List.append_cancel_left hp').symm
  have hbefore : q.before = z.reverse ++ p.before := by
    have hrev := congrArg List.reverse hz
    rw [List.reverse_append, Position.backpart, Position.backpart, List.reverse_reverse,
      List.reverse_reverse] at hrev
    exact hrev.symm
  refine stop_eq_of_callAt? hr hs hbefore hfore hp hq ?_
  -- it does not start behind the first one, since that ends with no white space
  by_contra hge
  have hcloser : Text.isSpace r.closer = false := by
    unfold closer
    cases r.language <;> decide
  have hpre : (p.backpart ++ x) ++ [r.closer] <+: q.backpart := by
    have hwhole : q.backpart ++ q.forepart = ((p.backpart ++ x) ++ [r.closer]) ++ rest := by
      rw [← hq', (positions_split hps).1, hpfore]
      simp
    obtain ⟨y, hy, -⟩ := Text.split_of_size hwhole (by
      simp only [Position.offset] at hge hcstop
      simp only [Position.backpart, Text.size_append, Text.size_reverse] at hcstop ⊢
      omega)
    exact ⟨y, hy.symm⟩
  have hstart := start_of_backpart hcloser hpre
  simp only [Position.offset] at hcstop
  simp only [Position.backpart, Text.size_append, Text.size_reverse] at hstart hcstop
  omega

/-- A recorded span ends behind the character that ends a call. -/
theorem closer_of_mem (hr : Text.isIdentifier r.receiver = true)
    (hs : Text.isIdentifier r.selector = true) (hc : c ∈ (r.analyze content).startCalls) :
    content.IsBehind r.closer c.stop := by
  rw [analyze_eq] at hc
  rcases origin_call hc with h | ⟨xs, p, ys, hps, -, hp⟩
  · simp at h
  obtain ⟨x, rest, hfore, rfl, -, -⟩ := text_of_callAt? hr hs hp
  refine ⟨p.backpart ++ x, rest, ?_, ?_⟩
  · rw [(positions_split hps).1, hfore]
    simp
  · simp only [Position.backpart, Position.offset, Text.size_append, Text.size_reverse]
    omega

end Recipe

end SdkWiring
