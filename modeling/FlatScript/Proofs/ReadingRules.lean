/-
# Rules for reading a language

How the readings of parts make up the reading of a whole.

* `Reads.bind` puts one reading behind another; the context of the first one is the language of
  the second one in front of its own context.  What the two outcomes are together is said by
  `Accepts.append`, `Refuses.behind` and `Blocks.behind`, one for each outcome of the second part.
* `Reads.of_branch` narrows a language down to the words that begin with the current lexeme, and
  `Reads.of_branch₂` to those that begin with both lexemes of the window.
* `reads_unit`, `reads_token` and `Reads.of_unexpected` are the readings of single steps.
-/
import FlatScript.Proofs.Reading

namespace FlatScript

open Grammar

variable {σ : Type} {α β γ δ : Type}

/-! ## Readers as functions of the window -/

namespace Parser

variable {ε : Type}

/-- One reader behind another goes on where the first one has stopped, if it has not failed. -/
theorem bind_apply (p : Reader ε σ α) (f : α → Reader ε σ γ) (w : Window σ) :
    (p >>= f) w = match p w with
      | .ok a w' => f a w'
      | .error e w' => .error e w' := by
  cases h : p w <;> simp [bind, EStateM.bind, h]

theorem current_bind_apply (f : Lexeme → Reader ε σ γ) (w : Window σ) :
    (current >>= f) w = f w.current w := rfl

theorem next_bind_apply (f : Lexeme → Reader ε σ γ) (w : Window σ) :
    (next >>= f) w = f w.next w := rfl

theorem drawn_bind_apply (f : Nat → Reader ε σ γ) (w : Window σ) :
    (drawn >>= f) w = f w.drawn w := rfl

/-- What is given a span has the one from the current lexeme to the last one that was read. -/
theorem spanned_apply (p : Reader ε σ (Span → α)) (w : Window σ) :
    spanned p w = match p w with
      | .ok make w' => .ok (make (w.current.span.union w'.previous)) w'
      | .error e w' => .error e w' := by
  show (p >>= fun make => previous >>= fun s => pure (make (w.current.span.union s))) w = _
  rw [bind_apply]
  cases p w <;> rfl

variable [Failure ε] [Feed σ]

/-- A given token is taken if it is there, and refused otherwise. -/
theorem consume_apply (t : Token) (w : Window σ) :
    (consume t : Reader ε σ Unit) w =
      (if w.current.token = t then advance else unexpected (.token t) : Reader ε σ Unit) w := rfl

/-- A token that may be there is taken if it is. -/
theorem accept_bind_apply (t : Token) (f : Bool → Reader ε σ γ) (w : Window σ) :
    (accept t >>= f) w =
      (if w.current.token = t then advance >>= fun _ => f true else f false :
        Reader ε σ γ) w := by
  show ((current >>= fun here => if here.token = t then advance >>= fun _ => pure true
    else pure false) >>= f) w = _
  rw [bind_apply, current_bind_apply]
  by_cases ht : w.current.token = t
  · rw [if_pos ht, if_pos ht, bind_apply, bind_apply]
    cases (advance : Reader ε σ Unit) w <;> rfl
  · rw [if_neg ht, if_neg ht]
    rfl

/-! ### Without checks -/

/-- A parser checks nothing: it only moves. -/
theorem advance_eq : (advance : Parser σ Unit) = shift := rfl

/-- A token that was seen is consumed like any other. -/
theorem expect_eq (t : Token) : (expect t : Parser σ Unit) = consume t := rfl

omit [Feed σ] in
theorem movedSince_bind (before : Nat) (f : Unit → Parser σ γ) :
    (movedSince before >>= f) = f () := rfl

omit [Feed σ] in
/-- Whether the window has moved is not looked at. -/
theorem progressing_eq (p : Parser σ α) : progressing p = p := by
  funext w
  show (p >>= fun a => pure a) w = p w
  rw [bind_apply]
  cases p w <;> rfl

end Parser

variable [Feed σ] {w : Window σ}

/-- Two parsers that do the same at a window read the same from it. -/
theorem Reads.congr {view : α → β} {p q : Parser σ α} {L : Language β} {K : β → Language Unit}
    (h : q w = p w) (hp : Reads view p w L K) : Reads view q w L K := by
  unfold Reads at hp ⊢
  rwa [h]

/-! ## Sequences -/

/-- Taking one part and then another is taking both. -/
theorem append_ahead {w w' w'' : Window σ} {used used' : List Lexeme}
    (h : w.ahead = used ++ₛ w'.ahead) (h' : w'.ahead = used' ++ₛ w''.ahead) :
    w.ahead = (used ++ used') ++ₛ w''.ahead := by
  rw [h, h', Stream'.append_append_stream]

/-- Lexemes that can be taken, and more of them. -/
theorem proper_append {used used' : List Lexeme} (h : ∀ l ∈ used, l.Proper)
    (h' : ∀ l ∈ used', l.Proper) : ∀ l ∈ used ++ used', l.Proper := by
  intro l hl
  rcases List.mem_append.1 hl with hl | hl
  · exact h l hl
  · exact h' l hl

/-- The beginning of a word can be completed to the word and what stands behind it. -/
theorem Language.completable_of_word {L : Language β} {K : β → Language Unit} {b : β}
    [hK : (K b).Inhabited] (us vs : List Token) (h : L (us ++ vs) b) :
    Completable (L.bind K) us := by
  obtain ⟨k, _, hk⟩ := hK
  exact ⟨vs ++ k, (), us ++ vs, b, k, h, hk, (List.append_assoc ..).symm⟩

/-- What completes a word behind a word of another language completes the whole. -/
theorem Language.completable_bind {L : Language β} {M : β → Language γ} {us : List Token} {b : β}
    (hL : L us b) {vs : List Token} (h : Completable (M b) vs) :
    Completable (L.bind M) (us ++ vs) := by
  obtain ⟨ws, c, hM⟩ := h
  exact ⟨ws, c, us, b, vs ++ ws, hL, hM, List.append_assoc ..⟩

section
variable {view : α → β} {view' : γ → δ} {p : Parser σ α} {f : α → Parser σ γ}
  {L : Language β} {M : β → Language δ} {K : δ → Language Unit}
  {used used' : List Lexeme} {a : α} {c : γ} {w' w'' : Window σ}

/-- Behind a word that was taken, only words of the second language can follow. -/
theorem Accepts.exists_second (h : Accepts view L (fun b => (M b).bind K) w used a w')
    {ts us k : List Token} {d : δ} (hts : L.bind M ts d) (hk : K d k ())
    (hus : [w'.current.token] <+: us) (hpre : tokens used ++ us <+: ts ++ k) :
    ∃ vs, M (view a) vs d ∧ ts = tokens used ++ vs ∧ us <+: vs ++ k := by
  obtain ⟨us', b, vs, hL, hM, rfl⟩ := hts
  rw [List.append_assoc] at hpre
  have hfirst : tokens used ++ [w'.current.token] <+: us' ++ (vs ++ k) :=
    ((List.prefix_append_right_inj _).2 hus).trans hpre
  obtain ⟨rfl, rfl⟩ := h.only us' b (vs ++ k) hL ⟨vs, d, k, hM, hk, rfl⟩ hfirst
  exact ⟨vs, hM, rfl, (List.prefix_append_right_inj _).1 hpre⟩

/-- Two words that were taken one behind the other are taken as one. -/
theorem Accepts.append (h : Accepts view L (fun b => (M b).bind K) w used a w')
    (h' : Accepts view' (M (view a)) K w' used' c w'') :
    Accepts view' (L.bind M) K w (used ++ used') c w'' where
  ahead := append_ahead h.ahead h'.ahead
  proper := proper_append h.proper h'.proper
  clear := h'.clear
  word := ⟨_, _, _, h.word, h'.word, tokens_append ..⟩
  only := by
    intro ts d k hts hk hpre
    rw [tokens_append, List.append_assoc] at hpre
    obtain ⟨vs, hM, rfl, hrest⟩ := h.exists_second hts hk (Window.current_prefix h'.ahead) hpre
    obtain ⟨rfl, rfl⟩ := h'.only vs d k hM hk hrest
    exact ⟨(tokens_append ..).symm, rfl⟩

/-- What is refused behind a word that was taken is refused as the continuation of this word. -/
theorem Refuses.behind {e : Unexpected} (h : Accepts view L (fun b => (M b).bind K) w used a w')
    (h' : Refuses (M (view a)) K w' used' e w'') :
    Refuses (L.bind M) K w (used ++ used') e w'' where
  ahead := append_ahead h.ahead h'.ahead
  proper := proper_append h.proper h'.proper
  clear := h'.clear
  got := h'.got
  span := h'.span
  misfit := by
    -- A word that went on would begin with the word taken first, so the second part of it
    -- would go on where the second parser says that none can.
    rintro ⟨ws, _, ts, d, k, hts, hk, heq⟩
    rw [tokens_append] at heq
    have hpre : tokens used ++ (tokens used' ++ [e.got]) <+: ts ++ k :=
      ⟨ws, by simpa only [List.append_assoc] using heq⟩
    have hus : [w'.current.token] <+: tokens used' ++ [e.got] := by
      rw [h'.got]
      exact Window.current_prefix h'.ahead
    obtain ⟨vs, hM, rfl, xs, hrest⟩ := h.exists_second hts hk hus hpre
    exact h'.misfit ⟨xs, (), vs, d, k, hM, hk, hrest⟩
  honest := by
    intro t ht
    obtain ⟨hne, hfit⟩ := h'.honest t ht
    rw [tokens_append, List.append_assoc, Language.bind_assoc]
    exact ⟨hne, Language.completable_bind h.word hfit⟩

/-- A character behind a word that was taken blocks the way from there on. -/
theorem Blocks.behind {e : LexError} (h : Accepts view L (fun b => (M b).bind K) w used a w')
    (h' : Blocks (M (view a)) K w' used' e) : Blocks (L.bind M) K w (used ++ used') e where
  ahead := by
    obtain ⟨next, bad, rest, hahead, hnext, hbad⟩ := h'.ahead
    refine ⟨next, bad, rest, ?_, hnext, hbad⟩
    rw [h.ahead, hahead, ← Stream'.append_append_stream, List.append_assoc]
  proper := proper_append h.proper h'.proper
  fits := by
    rw [tokens_append, Language.bind_assoc]
    exact Language.completable_bind h.word h'.fits

/-- **Reading one language behind another.** -/
theorem Reads.bind (hp : Reads view p w L fun b => (M b).bind K)
    (hf : ∀ a w' used, p w = .ok a w' → Accepts view L (fun b => (M b).bind K) w used a w' →
      Reads view' (f a) w' (M (view a)) K) :
    Reads view' (p >>= f) w (L.bind M) K := by
  unfold Reads at hp ⊢
  rw [Parser.bind_apply]
  match hpw : p w with
  | .ok a w' =>
    rw [hpw] at hp
    obtain ⟨used, h⟩ := hp
    have hfa := hf a w' used hpw h
    unfold Reads at hfa
    match hfw : f a w' with
    | .ok c w'' =>
      rw [hfw] at hfa
      obtain ⟨used', h'⟩ := hfa
      simp only [hfw]
      exact ⟨used ++ used', h.append h'⟩
    | .error (.syntactic e) w'' =>
      rw [hfw] at hfa
      obtain ⟨used', h'⟩ := hfa
      simp only [hfw]
      exact ⟨used ++ used', h'.behind h⟩
    | .error (.lexical e) w'' =>
      rw [hfw] at hfa
      obtain ⟨used', h'⟩ := hfa
      simp only [hfw]
      exact ⟨used ++ used', h'.behind h⟩
  | .error (.syntactic e) w' =>
    rw [hpw] at hp
    obtain ⟨used, h⟩ := hp
    refine ⟨used, h.ahead, h.proper, h.clear, h.got, h.span, ?_, ?_⟩
    · rw [Language.bind_assoc]
      exact h.misfit
    · rw [Language.bind_assoc]
      exact h.honest
  | .error (.lexical e) w' =>
    rw [hpw] at hp
    obtain ⟨used, h⟩ := hp
    refine ⟨used, h.ahead, h.proper, ?_⟩
    rw [Language.bind_assoc]
    exact h.fits

end

/-! ## Decisions -/

section
variable {view : α → β} {p : Parser σ α} {L P : Language β} {K : β → Language Unit}

/-- What can be completed to a word of fewer words can be completed to one of more. -/
theorem Language.completable_mono (hsub : ∀ ts b, P ts b → L ts b) {us : List Token}
    (h : Completable (P.bind K) us) : Completable (L.bind K) us := by
  obtain ⟨ws, _, ts, b, k, hts, hk, heq⟩ := h
  exact ⟨ws, (), ts, b, k, hsub ts b hts, hk, heq⟩

/-- **Deciding on part of a language.**  Say that every word that goes on as the lexemes `us` ahead
do belongs to a part of the language.  Then it is enough to read that part, if every outcome of
doing so has seen `us`: either `us` is no more than the current lexeme, or something is taken. -/
theorem Reads.of_part {us : List Token} (hsub : ∀ ts b, P ts b → L ts b)
    (hpart : ∀ ts b k, L ts b → K b k () → us <+: ts ++ k → P ts b)
    (htaken : ∀ (used : List Lexeme) (w' : Window σ), w.ahead = used ++ₛ w'.ahead → used ≠ [] →
      us <+: tokens used ++ [w'.current.token])
    (hnone : us <+: [w.current.token] ∨
      (∀ b, ¬ P [] b) ∧ Completable (P.bind K) [w.current.token])
    (h : Reads view p w P K) : Reads view p w L K := by
  -- If nothing was taken, the window has not moved.
  have hcurrent : ∀ w' : Window σ, w.ahead = [] ++ₛ w'.ahead → w'.current = w.current :=
    fun w' hahead => (congrFun hahead 0).symm
  have hseen : ∀ (used : List Lexeme) (w' : Window σ), w.ahead = used ++ₛ w'.ahead →
      (used = [] → us <+: [w.current.token]) → us <+: tokens used ++ [w'.current.token] := by
    intro used w' hahead hnothing
    by_cases hne : used = []
    · subst hne
      rw [hcurrent w' hahead]
      exact hnothing rfl
    · exact htaken used w' hahead hne
  unfold Reads at h ⊢
  match hpw : p w with
  | .ok a w' =>
    rw [hpw] at h
    obtain ⟨used, h⟩ := h
    have hus : us <+: tokens used ++ [w'.current.token] := by
      refine hseen used w' h.ahead ?_
      rintro rfl
      exact hnone.resolve_right fun hfit => hfit.1 _ h.word
    refine ⟨used, h.ahead, h.proper, h.clear, hsub _ _ h.word, ?_⟩
    intro ts b k hts hk hpre
    exact h.only ts b k (hpart ts b k hts hk (hus.trans hpre)) hk hpre
  | .error (.syntactic e) w' =>
    rw [hpw] at h
    obtain ⟨used, h⟩ := h
    have hus : us <+: tokens used ++ [e.got] := by
      rw [h.got]
      refine hseen used w' h.ahead ?_
      rintro rfl
      -- A refusal that took nothing has seen the current lexeme only, but then this one fits.
      refine hnone.resolve_right fun hfit => h.misfit ?_
      rw [h.got, hcurrent w' h.ahead]
      exact hfit.2
    refine ⟨used, h.ahead, h.proper, h.clear, h.got, h.span, ?_, ?_⟩
    · rintro ⟨ws, _, ts, b, k, hts, hk, heq⟩
      have hpre : us <+: ts ++ k := hus.trans ⟨ws, heq⟩
      exact h.misfit ⟨ws, (), ts, b, k, hpart ts b k hts hk hpre, hk, heq⟩
    · intro t ht
      obtain ⟨hne, hfit⟩ := h.honest t ht
      exact ⟨hne, Language.completable_mono hsub hfit⟩
  | .error (.lexical e) w' =>
    rw [hpw] at h
    obtain ⟨used, h⟩ := h
    exact ⟨used, h.ahead, h.proper, Language.completable_mono hsub h.fits⟩

/-- A decision on the current lexeme. -/
theorem Reads.of_branch (hsub : ∀ ts b, P ts b → L ts b)
    (hpart : ∀ ts b k, L ts b → K b k () → [w.current.token] <+: ts ++ k → P ts b)
    (h : Reads view p w P K) : Reads view p w L K :=
  h.of_part hsub hpart (fun _ _ hahead _ => Window.current_prefix hahead)
    (.inl (List.prefix_refl _))

/-- A decision on the current lexeme and the next one.  The current one has to fit, so that it is
taken before any outcome. -/
theorem Reads.of_branch₂ (hsub : ∀ ts b, P ts b → L ts b)
    (hpart : ∀ ts b k, L ts b → K b k () → [w.current.token, w.next.token] <+: ts ++ k →
      P ts b)
    (hnil : ∀ b, ¬ P [] b) (hfit : Completable (P.bind K) [w.current.token])
    (h : Reads view p w P K) : Reads view p w L K :=
  h.of_part hsub hpart (fun _ _ hahead hne => Window.next_prefix hahead hne)
    (.inr ⟨hnil, hfit⟩)

end

/-! ## Single steps -/

/-- Returning a result reads the empty word. -/
theorem reads_unit {view : α → β} {K : β → Language Unit} (hw : w.Clear) {a : α} {b : β}
    (hview : view a = b) : Reads view (pure a : Parser σ α) w (Language.unit b) K := by
  subst hview
  refine ⟨[], rfl, by simp, hw, ⟨rfl, rfl⟩, ?_⟩
  rintro ts b k ⟨rfl, rfl⟩ _ _
  exact ⟨rfl, rfl⟩

/-- Moving the window over the current lexeme reads its token. -/
theorem reads_advance {K : Unit → Language Unit} [(K ()).Inhabited] {t : Token} (hw : w.Clear)
    (ht : w.current.token = t) (hend : t ≠ .endOfInput) :
    Reads id (Parser.advance : Parser σ Unit) w (Language.token t) K := by
  have hproper : ∀ l ∈ [w.current], l.Proper := by
    intro l hl
    rw [List.mem_singleton] at hl
    subst hl
    exact ⟨ht ▸ hend, hw.current⟩
  unfold Reads
  rw [Parser.advance_eq]
  rcases Parser.shift_cases w with ⟨e, w', bad, rest, h, hbad, hahead⟩ |
    ⟨w', h, hahead, hcurrent, hnext, -⟩
  · rw [h]
    refine ⟨[w.current], ⟨w.next, bad, rest, hahead, hw.next, hbad⟩, hproper, ?_⟩
    exact Language.completable_of_word (b := ()) _ [] (by simp [Language.token, ht])
  · rw [h]
    refine ⟨[w.current], hahead, hproper, ⟨hcurrent ▸ hw.next, hnext⟩, by simp [Language.token, ht],
      ?_⟩
    intro ts _ k hts _ _
    exact ⟨by rw [hts]; simp [ht], rfl⟩

/-- Refusing the current lexeme reads a language, if no word goes on with it and words go on with
all tokens that were expected. -/
theorem Reads.of_unexpected {view : α → β} {L : Language β} {K : β → Language Unit}
    {expected : Expected} (hw : w.Clear)
    (hmisfit : ∀ ts b k, L ts b → K b k () → ¬ [w.current.token] <+: ts ++ k)
    (hhonest : ∀ t, expected.Fits t → t ≠ .endOfInput ∧ Completable (L.bind K) [t]) :
    Reads view (Parser.unexpected expected : Parser σ α) w L K := by
  refine ⟨[], rfl, by simp, hw, rfl, rfl, ?_, hhonest⟩
  rintro ⟨ws, _, ts, b, k, hts, hk, heq⟩
  exact hmisfit ts b k hts hk ⟨ws, heq⟩

/-- Reading one given token. -/
theorem reads_token {K : Unit → Language Unit} [(K ()).Inhabited] {t : Token} (hw : w.Clear)
    (hend : t ≠ .endOfInput) :
    Reads id (Parser.consume t : Parser σ Unit) w (Language.token t) K := by
  by_cases ht : w.current.token = t
  · refine (reads_advance hw ht hend).congr ?_
    rw [Parser.consume_apply, if_pos ht]
  · have hrefuse : Reads id (Parser.unexpected (.token t) : Parser σ Unit) w
        (Language.token t) K := by
      refine .of_unexpected hw ?_ ?_
      · rintro ts _ k rfl _ hpre
        exact ht (List.cons_prefix_cons.1 hpre).1
      · rintro _ ⟨⟩
        exact ⟨hend, Language.completable_of_word (b := ()) [t] [] rfl⟩
    refine hrefuse.congr ?_
    rw [Parser.consume_apply, if_neg ht]

/-- A word of one token is read by moving over it. -/
theorem Reads.of_single {view : α → β} {L : Language β} {K : β → Language Unit}
    [∀ b, (K b).Inhabited] {a : α} (hw : w.Clear) (hend : w.current.token ≠ .endOfInput)
    (hword : L [w.current.token] (view a))
    (honly : ∀ ts b k, L ts b → K b k () → [w.current.token] <+: ts ++ k →
      ts = [w.current.token] ∧ b = view a) :
    Reads view (Parser.advance >>= fun _ => pure a : Parser σ α) w L K := by
  refine Reads.of_branch (P := (Language.token w.current.token).bind fun _ => .unit (view a))
    ?_ ?_ ?_
  · rintro _ _ ⟨_, _, _, rfl, ⟨rfl, rfl⟩, rfl⟩
    exact hword
  · intro ts b k hts hk hpre
    obtain ⟨rfl, rfl⟩ := honly ts b k hts hk hpre
    exact ⟨_, (), [], rfl, ⟨rfl, rfl⟩, rfl⟩
  · exact .bind (reads_advance hw rfl hend) fun _ w₁ _ _ h₁ => reads_unit h₁.clear rfl

/-- Adding the span of what was read changes neither what is read nor what it means. -/
theorem Reads.spanned {view : α → β} {p : Parser σ (Span → α)} {L : Language β}
    {K : β → Language Unit} (h : ∀ span, Reads (fun make => view (make span)) p w L K) :
    Reads view (Parser.spanned p) w L K := by
  unfold Reads
  rw [Parser.spanned_apply]
  match hpw : p w with
  | .ok make w' =>
    have hp := h (w.current.span.union w'.previous)
    unfold Reads at hp
    rw [hpw] at hp
    obtain ⟨used, h⟩ := hp
    exact ⟨used, h.ahead, h.proper, h.clear, h.word, h.only⟩
  | .error (.syntactic e) w' =>
    have hp := h {}
    unfold Reads at hp
    rwa [hpw] at hp
  | .error (.lexical e) w' =>
    have hp := h {}
    unfold Reads at hp
    rwa [hpw] at hp

end FlatScript
