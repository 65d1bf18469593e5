import SlideDeck.Proofs.Syntax.Content

/-! # Reading documents

`Document.ofTokens` reads exactly the documents of the grammar, and each as the
document that it denotes (`ofTokens_iff_denotes`).

* `item_sound`, `item_content` and `item_block` are the step of the loop over
  the items of a slide, and `extended` is what a run of it makes of a slide.
* `slide_sound` and `slide_complete` turn what the state has recorded about
  numbers and names into the rules for a slide as a whole.

Two tokens decide what an item is before anything of it is read, and neither
choice shadows the other: an opening brace after an identifier begins a style
block only, and it can not continue the content before it because content is
followed by an identifier or a bracket. -/

namespace SlideDeck.Syntax

open Reader

variable {s s' : Upcoming}

/-! ## Items -/

/-- A slide with further contents, at most one, and further style blocks. -/
def extended (x : Slide) (es : List Element) (bs : List StyleBlock) : Slide :=
  { x with content := es.head?.getD x.content, styles := x.styles ++ bs }

/-- How many contents a slide has room for. -/
def room (x : Slide) : Nat :=
  if x.content.isHole then 1 else 0

theorem room_le_one (x : Slide) : room x ≤ 1 := by
  rw [room]
  split <;> decide

theorem Content.not_hole {ts : List Token} {e : Element} (h : Content ts e) : e.isHole = false := by
  cases h <;> rfl

theorem findStyle?_eq_none {x : Slide} {target : Bytes} :
    x.findStyle? target = none ↔ target ∉ x.styles.map StyleBlock.target := by
  simp [Slide.findStyle?, List.find?_eq_none]

theorem styleBlock_eq_ok {target : Bytes} {t : Token} {more : List Token} {b : StyleBlock}
    (tokens : s.tokens = t :: more) :
    styleBlock target s = .ok (b, s') ↔
      ∃ ts m rest, more = ts ++ rest ∧ Block none ts m ∧ b = ⟨target, m, t.position⟩ ∧
        s' = before s rest := by
  rw [styleBlock]
  rw [bind_current, bind_advance, nextToken_of tokens, tokens]
  constructor
  · intro h
    obtain ⟨m, s₁, readBlock, h⟩ := bind_eq_ok.1 h
    cases h
    obtain ⟨ts, rest, split, isBlock, rfl⟩ := properties_eq_ok.1 readBlock
    exact ⟨ts, m, rest, split, isBlock, rfl, rfl⟩
  · intro parts
    obtain ⟨ts, m, rest, split, isBlock, rfl, rfl⟩ := parts
    exact bind_of_ok (properties_eq_ok.2 ⟨ts, rest, split, isBlock, rfl⟩)

/-- An identifier before a brace is the target of a style block. -/
theorem item_eq_block {x : Slide} {word : Bytes} {place : Position} {more : List Token}
    (tokens : s.tokens = ⟨.identifier word, place⟩ :: more) (opens : nextLexeme more = .leftBrace) :
    item x s = (do
      let block ← styleBlock word
      if (x.findStyle? word).isSome then failAt block.position (.repeatedBlock word)
      return extended x [] [block]) s := by
  simp [item, nextToken, tokens, opens, extended]

/-- An identifier before a parenthesis or a double colon begins content. -/
theorem item_eq_content {x : Slide} {word : Bytes} {place : Position} {more : List Token}
    (tokens : s.tokens = ⟨.identifier word, place⟩ :: more)
    (opens : nextLexeme more = .leftParen ∨ nextLexeme more = .definition) :
    item x s = (do
      if !x.content.isHole then failAt place (.secondContent (.identifier word))
      let e ← element nestingLimit
      return extended x [e] []) s := by
  rcases opens with opens | opens <;> simp [item, nextToken, tokens, opens, extended]

/-- An item that is read is content for which there is room, or a block for a new target. -/
theorem item_sound {x x' : Slide} (h : item x s = .ok (x', s')) :
    (∃ ts rest e, s.tokens = ts ++ rest ∧ Content ts e ∧ depth e ≤ 256 ∧ Fresh s e.flatten ∧
      x.content.isHole ∧ x' = extended x [e] [] ∧ s' = passed s e.flatten rest) ∨
    ∃ target place ts m rest, s.tokens = ⟨.identifier target, place⟩ :: (ts ++ rest) ∧
      Block none ts m ∧ target ∉ x.styles.map StyleBlock.target ∧
      x' = extended x [] [⟨target, m, place⟩] ∧ s' = before s rest := by
  cases tokens : s.tokens with
  | nil => simp [item, nextToken, tokens] at h
  | cons t more =>
    obtain ⟨l, place⟩ := t
    cases l with
    | identifier word =>
      by_cases brace : nextLexeme more = .leftBrace
      · rw [item_eq_block tokens brace] at h
        obtain ⟨b, s₁, readBlock, h⟩ := bind_eq_ok.1 h
        obtain ⟨ts, m, rest, rfl, isBlock, rfl, rfl⟩ := (styleBlock_eq_ok tokens).1 readBlock
        cases found : x.findStyle? word with
        | some b => simp [found] at h
        | none =>
          simp [found] at h
          obtain ⟨rfl, rfl⟩ := h
          exact .inr ⟨word, place, ts, m, rest, rfl, isBlock, findStyle?_eq_none.1 found, rfl, rfl⟩
      by_cases opens : nextLexeme more = .leftParen ∨ nextLexeme more = .definition
      · rw [item_eq_content tokens opens] at h
        cases vacant : x.content.isHole with
        | false => simp [vacant] at h
        | true =>
          simp only [vacant, Bool.not_true, Bool.false_eq_true, if_false] at h
          obtain ⟨e, s₁, readContent, h⟩ := bind_eq_ok.1 h
          cases h
          obtain ⟨ts, rest, split, isContent, shallow, fresh, rfl⟩ :=
            (element_reads nestingLimit).sound readContent
          exact .inl ⟨ts, rest, e, tokens ▸ split, isContent, shallow, fresh, rfl, rfl, rfl⟩
      · -- No other token may follow the identifier.
        obtain ⟨notParen, notColons⟩ := not_or.1 opens
        simp [item, nextToken, tokens] at h
    | _ => simp [item, nextToken, tokens] at h

theorem item_content {x : Slide} {ts rest : List Token} {e : Element} (isContent : Content ts e)
    (tokens : s.tokens = ts ++ rest) (vacant : x.content.isHole) (shallow : depth e ≤ 256)
    (fresh : Fresh s e.flatten) (noBlock : nextLexeme rest ≠ .leftBrace) :
    item x s = .ok (extended x [e] [], passed s e.flatten rest) := by
  obtain ⟨word, place, more, starts, opens⟩ := isContent.first
  have opens' : nextLexeme (more ++ rest) = .leftParen ∨
      nextLexeme (more ++ rest) = .definition := by
    cases more with
    | nil => rcases opens with opens | opens <;> cases opens
    | cons => exact opens
  rw [item_eq_content (by rw [tokens, starts]; rfl) opens']
  simp only [vacant, Bool.not_true, Bool.false_eq_true, if_false]
  exact bind_of_ok ((element_reads nestingLimit).complete isContent shallow fresh tokens noBlock)

theorem item_block {x : Slide} {target : Bytes} {place : Position} {ts rest : List Token}
    {m : PropertyMap} (isBlock : Block none ts m)
    (tokens : s.tokens = ⟨.identifier target, place⟩ :: (ts ++ rest))
    (new : target ∉ x.styles.map StyleBlock.target) :
    item x s = .ok (extended x [] [⟨target, m, place⟩], before s rest) := by
  have opens : nextLexeme (ts ++ rest) = .leftBrace := by
    cases isBlock
    rfl
  rw [item_eq_block tokens opens,
    bind_of_ok ((styleBlock_eq_ok tokens).2 ⟨ts, m, rest, rfl, isBlock, rfl, rfl⟩)]
  simp [findStyle?_eq_none.2 new]

/-! ## Slides -/

@[simp] theorem extended_nil (x : Slide) : extended x [] [] = x := by
  simp [extended]

@[simp] theorem extended_block (x : Slide) (b : StyleBlock) (es : List Element)
    (bs : List StyleBlock) : extended (extended x [] [b]) es bs = extended x es (b :: bs) := by
  simp [extended]

@[simp] theorem extended_content (x : Slide) (e : Element) (bs : List StyleBlock) :
    extended (extended x [e] []) [] bs = extended x [e] bs := by
  simp [extended]

theorem Content.room {ts : List Token} {e : Element} (h : Content ts e) (x : Slide) :
    Syntax.room (extended x [e] []) = 0 := by
  simp [Syntax.room, extended, h.not_hole]

theorem Items.next_not_brace {body rest : List Token} {es : List Element} {bs : List StyleBlock}
    {last : Position} (h : Items body es bs) :
    nextLexeme (body ++ ⟨.rightBracket, last⟩ :: rest) ≠ .leftBrace := by
  cases h with
  | nil => nofun
  | content isContent =>
    obtain ⟨word, place, more, rfl, -⟩ := isContent.first
    nofun
  | block => nofun

theorem Items.not_hole {body : List Token} {es : List Element} {bs : List StyleBlock}
    (h : Items body es bs) : ∀ e ∈ es, e.isHole = false := by
  induction h with
  | nil => nofun
  | content isContent _ ih =>
    intro e member
    cases member with
    | head => exact isContent.not_hole
    | tail _ among => exact ih e among
  | block _ _ ih => exact ih

theorem SlideTokens.not_hole {ts : List Token} {s : Slide} (h : SlideTokens ts s) :
    s.content.isHole = false := by
  cases h with
  | mk isItems => exact isItems.not_hole _ (List.mem_singleton_self _)

theorem itemsInto_sound {n : Nat} {x x' : Slide} (enough : s.tokens.length < n)
    (distinct : (x.styles.map StyleBlock.target).Nodup) (h : itemsInto n x s = .ok (x', s')) :
    ∃ body es bs last rest, s.tokens = body ++ ⟨.rightBracket, last⟩ :: rest ∧ Items body es bs ∧
      ((x.styles ++ bs).map StyleBlock.target).Nodup ∧ es.length ≤ room x ∧ depthAll es ≤ 256 ∧
      Fresh s (Element.flattenAll es) ∧ x' = extended x es bs ∧
      s' = passed s (Element.flattenAll es) (⟨.rightBracket, last⟩ :: rest) := by
  -- What the slide has already goes into the statement, since the loop adds to it as it goes.
  induction n generalizing s x with
  | zero => cases enough
  | succ n ih =>
    rw [itemsInto] at h
    rw [bind_isNext] at h
    by_cases closing : nextLexeme s.tokens = .rightBracket
    · obtain ⟨last, rest, tokens⟩ := exists_next closing nofun
      simp only [closing, decide_true, if_true] at h
      cases h
      refine ⟨[], [], [], last, rest, tokens, .nil, by simpa using distinct, Nat.zero_le _,
        Nat.zero_le _, fresh_nil _, (extended_nil _).symm, ?_⟩
      rw [← tokens]
      rfl
    · simp only [closing, decide_false, Bool.false_eq_true, if_false] at h
      obtain ⟨x₁, s₁, readItem, h⟩ := bind_eq_ok.1 h
      rcases item_sound readItem with ⟨ts, rest, e, tokens, isContent, shallow, fresh, vacant, rfl,
        rfl⟩ | ⟨target, place, ts, m, rest, tokens, isBlock, new, rfl, rfl⟩
      -- Content takes the only room that there is.
      · have shorter : (passed s e.flatten rest).tokens.length < n := by
          have notEmpty := isContent.length_pos
          simp only [tokens, List.length_append] at enough
          rw [passed_tokens]
          omega
        obtain ⟨body, es, bs, last, rest', rfl, isItems, distinct', fits, shallow', fresh', rfl,
          rfl⟩ := ih shorter (by simpa [extended] using distinct) h
        rw [isContent.room, Nat.le_zero, List.length_eq_zero_iff] at fits
        subst fits
        refine ⟨ts ++ body, [e], bs, last, rest', by simp [tokens], .content isContent isItems,
          by simpa [extended] using distinct', by simp [room, vacant], ?_⟩
        simpa [depthAll, Element.flattenAll] using ⟨shallow, fresh⟩
      -- A block leaves the room as it is, and its target joins those that are taken.
      · have shorter : (before s rest).tokens.length < n := by
          simp only [tokens, List.length_cons, List.length_append] at enough
          rw [before_tokens]
          omega
        have distinct₁ :
            ((extended x [] [⟨target, m, place⟩]).styles.map StyleBlock.target).Nodup := by
          simpa [extended, List.nodup_append] using
            ⟨distinct, fun b member equal => new (List.mem_map.2 ⟨b, member, equal⟩)⟩
        obtain ⟨body, es, bs, last, rest', rfl, isItems, distinct', fits, shallow', fresh', rfl,
          rfl⟩ := ih shorter distinct₁ h
        refine ⟨_, es, ⟨target, m, place⟩ :: bs, last, rest', by simp [tokens],
          @Items.block _ place _ _ _ _ _ isBlock isItems, by simpa [extended] using distinct',
          fits, shallow', (fresh_before ..).1 fresh',
          extended_block .., ?_⟩
        rw [passed_before]

theorem itemsInto_complete {body : List Token} {es : List Element} {bs : List StyleBlock}
    (isItems : Items body es bs) :
    ∀ {s : Upcoming} {n : Nat} {x : Slide} {last : Position} {rest : List Token},
      s.tokens = body ++ ⟨.rightBracket, last⟩ :: rest → s.tokens.length < n →
      ((x.styles ++ bs).map StyleBlock.target).Nodup → es.length ≤ room x → depthAll es ≤ 256 →
      Fresh s (Element.flattenAll es) →
      itemsInto n x s
        = .ok (extended x es bs,
            passed s (Element.flattenAll es) (⟨.rightBracket, last⟩ :: rest)) := by
  induction isItems with
  | nil =>
    intro s n x last rest tokens enough _ _ _ _
    obtain ⟨n, rfl⟩ := Nat.exists_eq_succ_of_ne_zero (Nat.ne_zero_of_lt enough)
    rw [List.nil_append] at tokens
    rw [itemsInto, bind_isNext, Element.flattenAll, extended_nil, passed_nil, ← tokens, before_self]
    simp [tokens]
  | @content ts more e es bs isContent isItems ih =>
    intro s n x last rest tokens enough distinct fits shallow fresh
    obtain ⟨n, rfl⟩ := Nat.exists_eq_succ_of_ne_zero (Nat.ne_zero_of_lt enough)
    obtain ⟨word, place, after, starts, -⟩ := isContent.first
    have notClosing : nextLexeme s.tokens ≠ .rightBracket := by
      rw [tokens, starts]
      nofun
    -- There is room for one content at most, so no content follows.
    obtain rfl : es = [] := by
      have single := room_le_one x
      rw [List.length_cons] at fits
      exact List.length_eq_zero_iff.1 (by omega)
    have vacant : x.content.isHole := by
      apply Decidable.byContradiction
      intro occupied
      simp [room, occupied] at fits
    simp only [Element.flattenAll, List.append_nil, depthAll, Nat.max_zero] at shallow fresh ⊢
    rw [List.append_assoc] at tokens
    have shorter :
        (passed s e.flatten (more ++ ⟨.rightBracket, last⟩ :: rest)).tokens.length < n := by
      have notEmpty := isContent.length_pos
      simp only [tokens, List.length_append] at enough
      rw [passed_tokens, List.length_append]
      omega
    rw [itemsInto, bind_isNext]
    simp only [notClosing, decide_false, Bool.false_eq_true, if_false]
    rw [bind_of_ok (item_content isContent tokens vacant shallow fresh isItems.next_not_brace),
      ih (x := extended x [e] []) rfl shorter (by simpa [extended] using distinct) (Nat.zero_le _)
        (Nat.zero_le _) (fresh_nil _)]
    simp [Element.flattenAll]
  | @block target place ts more m es bs isBlock isItems ih =>
    intro s n x last rest tokens enough distinct fits shallow fresh
    obtain ⟨n, rfl⟩ := Nat.exists_eq_succ_of_ne_zero (Nat.ne_zero_of_lt enough)
    have notClosing : nextLexeme s.tokens ≠ .rightBracket := by
      rw [tokens]
      nofun
    simp only [List.cons_append, List.append_assoc] at tokens
    have new : target ∉ x.styles.map StyleBlock.target := by
      rw [List.map_append, List.nodup_append] at distinct
      exact fun member => distinct.2.2 target member target (List.mem_cons_self ..) rfl
    have shorter : (before s (more ++ ⟨.rightBracket, last⟩ :: rest)).tokens.length < n := by
      simp only [tokens, List.length_cons, List.length_append] at enough
      rw [before_tokens, List.length_append, List.length_cons]
      omega
    have distinct' : (((extended x [] [⟨target, m, place⟩]).styles ++ bs).map
        StyleBlock.target).Nodup := by
      simpa [extended] using distinct
    rw [itemsInto, bind_isNext]
    simp only [notClosing, decide_false, Bool.false_eq_true, if_false]
    rw [bind_of_ok (item_block isBlock tokens new),
      ih rfl shorter distinct' fits shallow ((fresh_before ..).2 fresh), extended_block,
      passed_before]

theorem isReserved_iff {word : Bytes} :
    isReserved word ↔ word = slideWord ∨ ∃ kind : Kind, word = kind.name := by
  rw [isReserved, Bool.or_eq_true, decide_eq_true_eq, Option.isSome_iff_exists]
  refine or_congr_right ⟨?_, ?_⟩
  · intro parts
    obtain ⟨kind, known⟩ := parts
    exact ⟨kind, (name_of_ofName? known).symm⟩
  · intro parts
    obtain ⟨kind, rfl⟩ := parts
    exact ⟨kind, ofName?_name kind⟩

/-- What a slide's first element finds: no number is taken and no name used. -/
def started (s : Upcoming) (rest : List Token) : Upcoming :=
  { s with tokens := rest, nextId := 0, names := [] }

/-- The elements that may come first in a slide are those that obey its rules. -/
theorem fresh_started {nodes : List Element} {rest : List Token} :
    Fresh (started s rest) nodes ↔
      (namesOf nodes).Nodup ∧
      (∀ name ∈ namesOf nodes, name ≠ slideWord ∧ ∀ kind : Kind, name ≠ kind.name) ∧
      nodes.map Element.id = List.range nodes.length := by
  have free : ∀ name, ¬ isReserved name ↔ name ≠ slideWord ∧ ∀ kind : Kind, name ≠ kind.name := by
    intro name
    rw [isReserved_iff, not_or, not_exists]
  constructor
  · intro parts
    obtain ⟨numbered, distinct, -, unreserved⟩ := parts
    refine ⟨distinct, fun name h => (free name).1 (unreserved name h), ?_⟩
    rw [numbered, List.range_eq_range']
    rfl
  · intro parts
    obtain ⟨distinct, unreserved, numbered⟩ := parts
    refine ⟨?_, distinct, nofun, fun name h => (free name).2 (unreserved name h)⟩
    rw [numbered, List.range_eq_range']
    rfl

/-- What is read of a slide after its opening bracket. -/
def slideBody (position : Position) : Reader Slide := do
  let x ← itemsInto (← limit) { position }
  if x.content.isHole then failAt position .emptySlide
  advance
  return { x with nodeCount := (← get).nextId }

theorem slide_eq {first : Position} {more : List Token}
    (tokens : s.tokens = ⟨.leftBracket, first⟩ :: more) :
    slide s = slideBody first (started s more) := by
  rw [slide]
  rw [bind_current, bind_advance, bind_modify, nextToken_of tokens, tokens]
  rfl

theorem slide_sound {x : Slide} (opening : nextLexeme s.tokens = .leftBracket)
    (h : slide s = .ok (x, s')) : ∃ ts, s.tokens = ts ++ s'.tokens ∧ SlideTokens ts x := by
  obtain ⟨first, more, tokens⟩ := exists_next opening nofun
  rw [slide_eq tokens, slideBody, bind_limit] at h
  obtain ⟨x', s₁, readItems, h⟩ := bind_eq_ok.1 h
  obtain ⟨body, es, bs, last, rest, split, isItems, distinct, fits, shallow, fresh, rfl, rfl⟩ :=
    itemsInto_sound (Nat.lt_succ_self _) (by simp) readItems
  cases es with
  -- A slide without content is refused.
  | nil => simp [extended, Element.isHole] at h
  | cons e es =>
    -- An empty slide has room for one content, so there is no second one.
    obtain rfl : es = [] := by
      rw [List.length_cons] at fits
      exact List.length_eq_zero_iff.1 (Nat.le_zero.1 (Nat.le_of_succ_le_succ fits))
    simp only [depthAll, Element.flattenAll, List.append_nil, Nat.max_zero] at shallow fresh h
    obtain ⟨distinctNames, unreserved, numbered⟩ := fresh_started.1 fresh
    cases empty : e.isHole with
    | true => simp [extended, empty] at h
    | false =>
      simp [extended, empty] at h
      obtain ⟨rfl, rfl⟩ := h
      simp only [started] at split
      subst split
      refine ⟨⟨.leftBracket, first⟩ :: (body ++ [⟨.rightBracket, last⟩]), by simp [tokens], ?_⟩
      simpa [passed, started] using
        SlideTokens.mk isItems distinct distinctNames unreserved shallow numbered

theorem slide_passed {x : Slide} {ts rest : List Token} (isSlide : SlideTokens ts x)
    (tokens : s.tokens = ts ++ rest) :
    slide s = .ok (x, passed (started s rest) x.content.flatten rest) := by
  cases isSlide with
  | @mk body content styles first last isItems distinct distinctNames unreserved shallow numbered =>
    simp only [List.cons_append, List.append_assoc, List.nil_append] at tokens
    have fresh : Fresh (started s (body ++ ⟨.rightBracket, last⟩ :: rest)) content.flatten :=
      fresh_started.2 ⟨distinctNames, unreserved, numbered⟩
    have single : Element.flattenAll [content] = content.flatten := List.append_nil _
    have read := itemsInto_complete isItems (x := { position := first })
      (s := started s (body ++ ⟨.rightBracket, last⟩ :: rest)) rfl (Nat.lt_succ_self _)
      (by simpa using distinct) (Nat.le_refl 1) (by simpa [depthAll] using shallow)
      (by rwa [single])
    have present : content.isHole = false := isItems.not_hole content (List.mem_singleton_self _)
    rw [slide_eq tokens, slideBody, bind_limit, bind_of_ok read, single]
    simp [extended, present, passed, started, before]

theorem slide_complete {x : Slide} {ts rest : List Token} (isSlide : SlideTokens ts x)
    (tokens : s.tokens = ts ++ rest) : ∃ s', slide s = .ok (x, s') ∧ s'.tokens = rest :=
  ⟨_, slide_passed isSlide tokens, rfl⟩

/-! ## Documents -/

theorem slidesFrom_sound {n : Nat} {reversed slides : List Slide}
    (noEnd : ∀ t ∈ s.tokens, t.lexeme ≠ .endOfInput) (enough : s.tokens.length < n)
    (h : slidesFrom n reversed s = .ok (slides, s')) :
    ∃ more, Slides s.tokens more ∧ slides = reversed.reverse ++ more := by
  induction n generalizing s reversed with
  | zero => cases enough
  | succ n ih =>
    rw [slidesFrom, bind_current, nextToken_lexeme] at h
    by_cases ended : nextLexeme s.tokens = .endOfInput
    -- No token is the end of the input, so there is none left.
    · simp only [ended] at h
      cases h
      have empty : s'.tokens = [] := by
        cases tokens : s'.tokens with
        | nil => rfl
        | cons t rest =>
          rw [tokens] at ended
          exact absurd ended (noEnd t (tokens ▸ List.mem_cons_self ..))
      rw [empty]
      exact ⟨[], .nil, (List.append_nil _).symm⟩
    by_cases opening : nextLexeme s.tokens = .leftBracket
    · simp only [opening] at h
      obtain ⟨x, s₁, readSlide, h⟩ := bind_eq_ok.1 h
      obtain ⟨ts, tokens, isSlide⟩ := slide_sound opening readSlide
      rw [tokens] at noEnd enough ⊢
      have shorter : s₁.tokens.length < n := by
        cases isSlide
        simp only [List.length_append, List.length_cons] at enough
        omega
      obtain ⟨more, isSlides, rfl⟩ :=
        ih (fun t among => noEnd t (List.mem_append_right _ among)) shorter h
      exact ⟨x :: more, .cons isSlide isSlides, by simp⟩
    · simp at h

theorem slidesFrom_complete {ts : List Token} {slides : List Slide} (isSlides : Slides ts slides) :
    ∀ {s : Upcoming} {n : Nat} {reversed : List Slide}, s.tokens = ts → s.tokens.length < n →
      ∃ s', slidesFrom n reversed s = .ok (reversed.reverse ++ slides, s') := by
  induction isSlides with
  | nil =>
    intro s n reversed tokens enough
    obtain ⟨n, rfl⟩ := Nat.exists_eq_succ_of_ne_zero (Nat.ne_zero_of_lt enough)
    refine ⟨s, ?_⟩
    rw [slidesFrom, bind_current, nextToken_lexeme, tokens]
    simp
  | @cons ts rest x slides isSlide isSlides ih =>
    intro s n reversed tokens enough
    obtain ⟨n, rfl⟩ := Nat.exists_eq_succ_of_ne_zero (Nat.ne_zero_of_lt enough)
    obtain ⟨s₁, readSlide, remaining⟩ := slide_complete isSlide tokens
    have opening : nextLexeme s.tokens = .leftBracket := by
      rw [tokens]
      cases isSlide
      rfl
    have shorter : s₁.tokens.length < n := by
      rw [tokens] at enough
      rw [remaining]
      cases isSlide
      simp only [List.length_append, List.length_cons] at enough
      omega
    obtain ⟨s₂, readRest⟩ := @ih s₁ n (x :: reversed) remaining shorter
    refine ⟨s₂, ?_⟩
    rw [slidesFrom, bind_current, nextToken_lexeme, opening]
    simp only
    rw [bind_of_ok readSlide, readRest]
    simp

/-- The tokens that count: those before the first end of the input that are no comments. -/
def significant (tokens : List Token) : List Token :=
  (tokens.filter fun t => !(t.lexeme matches .comment _)).takeWhile fun t => t.lexeme ≠ .endOfInput

/-- Tokens are read as a document exactly if those that count denote it. -/
theorem ofTokens_eq_ok {tokens : List Token} {d : Document} :
    Document.ofTokens tokens = .ok d ↔ Denotes (significant tokens) d := by
  obtain ⟨s, start, ended⟩ : ∃ s, Upcoming.ofTokens tokens = s ∧ s.tokens = significant tokens :=
    ⟨_, rfl, rfl⟩
  have run : Document.ofTokens tokens = .ok d ↔
      ∃ s', slidesFrom (s.tokens.length + 1) [] s = .ok (d.slides, s') := by
    have unfolded : Document.ofTokens tokens
        = (slidesFrom (s.tokens.length + 1) [] s).map fun read => ⟨read.1⟩ := by
      rw [← start]
      rfl
    rw [unfolded]
    cases slidesFrom (s.tokens.length + 1) [] s with
    | error e => simp [Except.map]
    | ok read =>
      obtain ⟨slides, s'⟩ := read
      cases d
      simp [Except.map]
  have noEnd : ∀ t ∈ s.tokens, t.lexeme ≠ .endOfInput := by
    intro t among
    rw [ended, significant] at among
    simpa using List.all_eq_true.1 List.all_takeWhile t among
  rw [run, ← ended]
  constructor
  · intro parts
    obtain ⟨s', read⟩ := parts
    obtain ⟨slides, isSlides, equal⟩ := slidesFrom_sound noEnd (Nat.lt_succ_self _) read
    rw [Denotes, equal]
    exact isSlides
  · intro isSlides
    exact slidesFrom_complete isSlides rfl (Nat.lt_succ_self _)

theorem significant_append {ts : List Token} {stop : Position}
    (plain : ∀ t ∈ ts, t.lexeme ≠ .endOfInput ∧ ∀ text, t.lexeme ≠ .comment text) :
    significant (ts ++ [⟨.endOfInput, stop⟩]) = ts := by
  have kept : ∀ t ∈ ts, !(t.lexeme matches .comment _) := by
    intro t among
    have notComment := (plain t among).2
    split
    · exact absurd ‹_› (notComment _)
    · rfl
  rw [significant, List.filter_append, List.filter_eq_self.2 kept,
    List.takeWhile_append_of_pos fun t among => by simpa using (plain t among).1]
  simp

/-- **Exactness of reading.**  Tokens without comments before the only end of the input are read as
a document exactly if the grammar derives them, and as the document that they denote. -/
theorem ofTokens_iff_denotes {ts : List Token} {stop : Position} {d : Document}
    (plain : ∀ t ∈ ts, t.lexeme ≠ .endOfInput ∧ ∀ text, t.lexeme ≠ .comment text) :
    Document.ofTokens (ts ++ [⟨.endOfInput, stop⟩]) = .ok d ↔ Denotes ts d := by
  rw [ofTokens_eq_ok, significant_append plain]

/-- The tokens of `[a :: text("x",)]` denote a slide with one text that is named. -/
theorem named_text_denotes :
    Denotes
      [⟨.leftBracket, {}⟩, ⟨.identifier (.ascii "a"), {}⟩, ⟨.definition, {}⟩,
        ⟨.identifier (.ascii "text"), {}⟩, ⟨.leftParen, {}⟩, ⟨.string (.ascii "x"), {}⟩,
        ⟨.comma, {}⟩, ⟨.rightParen, {}⟩, ⟨.rightBracket, {}⟩]
      ⟨[{ content := .text { name := some (.ascii "a") } (.ascii "x"), nodeCount := 1 }]⟩ :=
  (@ofTokens_iff_denotes _ {} _ (by simp)).1 rfl

end SlideDeck.Syntax
