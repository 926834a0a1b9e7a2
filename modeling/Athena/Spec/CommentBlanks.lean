import Athena.Native.Token

/-!
# Comments and blanks

A comment separates tokens as a blank does if the scanner finds its end.  It does not find
every end: `read_long_string` takes the character behind a star away with the star, so the
`*/` is missed where the stars before the slash are even in number.
-/

namespace Athena.Idl

open FBuffer Token

/-! ## Comments -/

/-- A comment in a text. -/
inductive Comment where
  | line (body : List Char)
  | block (body : List Char)
  deriving DecidableEq, Repr

/-- The number of stars at the end. -/
def stars (src : List Char) : Nat := (src.reverse.takeWhile (· == '*')).length

namespace Comment

/-- How a comment is written. -/
def text : Comment → List Char
  | .line body => '/' :: '/' :: body
  | .block body => '/' :: '*' :: (body ++ ['*', '/'])

/-- The text goes up to the end of the line, or up to the first `*/`. -/
def Closed : Comment → Prop
  | .line body => ∀ c ∈ body, isNewline c = false
  | .block body => ¬ ['*', '/'] <:+: body ++ ['*']

/-- The comment ends where `rest` begins. -/
def Ends (c : Comment) (rest : List Char) : Prop :=
  match c with
  | .line _ => ∀ d ∈ rest.head?, isNewline d = true
  | .block _ => True

/-- The scanner finds the end of the comment: there is no NUL in it, except behind a star that
takes it away, and the stars before the closing slash are odd in number. -/
def Fine : Comment → Prop
  | .line body => nul ∉ body
  | .block body =>
    (∀ before after, body = before ++ nul :: after → stars before % 2 = 1) ∧ stars body % 2 = 0

end Comment

/-- Up to the character `next` the text is divided into blanks, tokens and comments. -/
inductive Divided (next : Char) : List Char → List Comment → Prop where
  | nil : Divided next [] []
  | blank (b : Char) {pre : List Char} {cs : List Comment} (hb : isBlank b ∨ isNewline b)
      (h : Divided next pre cs) : Divided next (b :: pre) cs
  | comment (c : Comment) {pre : List Char} {cs : List Comment} (hclosed : c.Closed)
      (hends : c.Ends (pre ++ [next])) (h : Divided next pre cs) :
      Divided next (c.text ++ pre) (c :: cs)
  | token (b : Char) (word : List Char) (tok : Tok) {pre : List Char} {cs : List Comment}
      (hb : b ≠ nul ∧ ¬ isBlank b ∧ ¬ isNewline b)
      (hslash : b = '/' → ∀ d ∈ (word ++ (pre ++ [next])).head?, d ≠ '/' ∧ d ≠ '*')
      (htok : readToken b (word ++ (pre ++ [next])) = (tok, pre ++ [next]))
      (h : Divided next pre cs) : Divided next (b :: word ++ pre) cs

/-! ## Stars -/

/-- No more stars than characters. -/
theorem takeWhile_star_length_le (src : List Char) :
    (src.takeWhile (· == '*')).length ≤ src.length :=
  (List.takeWhile_prefix _).length_le

/-- A star in front counts only where all others are stars. -/
theorem stars_cons (c : Char) (src : List Char) :
    stars (c :: src) = if stars src = src.length ∧ c = '*' then stars src + 1 else stars src := by
  have hstars : (src.reverse.takeWhile (· == '*')).length = stars src := rfl
  rw [stars, List.reverse_cons, List.takeWhile_append, List.length_reverse, hstars]
  by_cases hall : stars src = src.length
  · rw [if_pos hall, List.length_append, List.length_reverse]
    by_cases hc : c = '*'
    · rw [if_pos ⟨hall, hc⟩, hc, hall]
      rfl
    · rw [if_neg fun h => hc h.2, List.takeWhile_cons_of_neg (by simpa using hc), hall]
      rfl
  · rw [if_neg hall, if_neg fun h => hall h.1, hstars]

/-- A character in front that is no star does not count. -/
theorem stars_cons_of_ne {c : Char} (hc : c ≠ '*') (src : List Char) :
    stars (c :: src) = stars src := by
  rw [stars_cons, if_neg fun h => hc h.2]

/-- A star and the character behind it. -/
theorem stars_star_cons (c : Char) (src : List Char) :
    stars ('*' :: c :: src) % 2 = stars src % 2 := by
  have hle : stars src ≤ src.length := by
    have := takeWhile_star_length_le src.reverse
    rwa [List.length_reverse] at this
  rw [stars_cons, stars_cons]
  by_cases hall : stars src = src.length ∧ c = '*'
  · rw [if_pos hall, if_pos ⟨by rw [List.length_cons, hall.1], rfl⟩]
    omega
  · rw [if_neg hall, if_neg fun h => ?_]
    rw [List.length_cons] at h
    omega

/-! ## Line ends -/

/-- A NUL in a comment stops the program. -/
theorem readLongString_nul (src : List Char) : readLongString (nul :: src) = .error .assertion := by
  cases src <;> rw [readLongString, if_pos rfl]

/-- A star and the character behind it. -/
theorem readLongString_star (c : Char) (src : List Char) :
    readLongString ('*' :: c :: src) = if c = '/' then .ok src else readLongString src := by
  rw [readLongString, if_neg (by decide), if_neg (by decide), if_pos rfl]

/-- A line end in a comment is skipped. -/
theorem readLongString_nextline {c : Char} (src : List Char) (hc : isNewline c = true) :
    readLongString (c :: src) = readLongString (nextline (c :: src)) := by
  have hnul : c ≠ nul := fun heq => by
    rw [heq] at hc
    exact absurd hc (by decide)
  cases src <;> rw [readLongString, if_neg hnul, if_pos hc]

/-- Between tokens it is skipped, too. -/
theorem symbol_nextline {c : Char} (src : List Char) (hc : isNewline c = true) :
    symbol (c :: src) = symbol (nextline (c :: src)) := by
  have hnul : c ≠ nul := fun heq => by
    rw [heq] at hc
    exact absurd hc (by decide)
  cases src <;> rw [symbol, if_neg hnul, if_pos hc]

/-- Where a function goes on after `nextline`, it does not matter that some pairs of line ends
are one. -/
theorem newline_eq {α : Type} (f : List Char → α)
    (hf : ∀ c src, isNewline c = true → f (c :: src) = f (nextline (c :: src))) {c : Char}
    (src : List Char) (hc : isNewline c = true) : f (c :: src) = f src := by
  induction hn : src.length using Nat.strongRecOn generalizing c src with
  | ind n ih =>
    rw [hf c src hc]
    cases src with
    | nil => rfl
    | cons c' src =>
      rw [nextline]
      split
      · next hpair =>
        rw [Bool.and_eq_true] at hpair
        rw [List.length_cons] at hn
        exact (ih src.length (by omega) src hpair.1 rfl).symm
      · rfl

/-- Any other character of a comment is skipped. -/
theorem readLongString_other {c : Char} (src : List Char) (hnul : c ≠ nul) (hstar : c ≠ '*') :
    readLongString (c :: src) = readLongString src := by
  by_cases hc : isNewline c = true
  · exact newline_eq readLongString (fun _ => readLongString_nextline) src hc
  · rw [readLongString.eq_def (c :: src)]
    dsimp only
    rw [if_neg hnul, if_neg hc, if_neg hstar]

/-- Blanks and line ends before a token are skipped. -/
theorem symbol_blank {c : Char} (src : List Char) (hc : isBlank c ∨ isNewline c) :
    symbol (c :: src) = symbol src := by
  by_cases hline : isNewline c = true
  · exact newline_eq symbol (fun _ => symbol_nextline) src hline
  · have hblank := hc.resolve_right hline
    have hnul : c ≠ nul := fun heq => by
      rw [heq] at hblank
      exact absurd hblank (by decide)
    rw [symbol.eq_def (c :: src)]
    dsimp only
    rw [if_neg hnul, if_neg hline, if_pos hblank]

/-! ## The end of a block comment -/

/-- A character in front that is neither a star nor the NUL makes no difference. -/
theorem fine_cons {c : Char} {body : List Char} (hnul : c ≠ nul) (hstar : c ≠ '*') :
    (Comment.block (c :: body)).Fine ↔ (Comment.block body).Fine := by
  simp only [Comment.Fine, stars_cons_of_ne hstar]
  refine and_congr ⟨fun h before after heq => ?_, fun h before after heq => ?_⟩ Iff.rfl
  · rw [← stars_cons_of_ne hstar]
    exact h (c :: before) after (congrArg (c :: ·) heq)
  · cases before with
    | nil => exact absurd (List.cons.inj heq).1 hnul
    | cons b before =>
      obtain ⟨rfl, heq'⟩ := List.cons.inj heq
      rw [stars_cons_of_ne hstar]
      exact h before after heq'

/-- Nor does a star with the character that it takes away. -/
theorem fine_star_cons (c : Char) (body : List Char) :
    (Comment.block ('*' :: c :: body)).Fine ↔ (Comment.block body).Fine := by
  simp only [Comment.Fine, stars_star_cons]
  refine and_congr ⟨fun h before after heq => ?_, fun h before after heq => ?_⟩ Iff.rfl
  · rw [← stars_star_cons c]
    exact h ('*' :: c :: before) after (congrArg ('*' :: c :: ·) heq)
  · -- a NUL cannot stand where the star stands
    cases before with
    | nil => exact absurd (List.cons.inj heq).1 (by decide)
    | cons b before =>
      -- the NUL stands behind the pair, with the same stars before it
      obtain ⟨hb, heq'⟩ := List.cons.inj heq
      rw [← hb]
      cases before with
      | nil => rfl
      | cons b' before =>
        rw [stars_star_cons]
        exact h before after (List.cons.inj heq').2

/-- Induction on a text in the steps of `readLongString`. -/
theorem star_induction {P : List Char → Prop} (nil : P []) (star : P ['*'])
    (pair : ∀ c body, P body → P ('*' :: c :: body))
    (other : ∀ c body, c ≠ '*' → P body → P (c :: body)) (body : List Char) : P body := by
  -- by induction on the length, as a star takes two characters
  induction hn : body.length using Nat.strongRecOn generalizing body with
  | ind n ih =>
    cases body with
    | nil => exact nil
    | cons c body =>
      rw [List.length_cons] at hn
      by_cases hc : c = '*'
      · subst hc
        cases body with
        | nil => exact star
        | cons d body =>
          rw [List.length_cons] at hn
          exact pair d body (ih body.length (by omega) body rfl)
      · exact other c body hc (ih body.length (by omega) body rfl)

/-- A comment that goes up to the first `*/` does so without its first character. -/
theorem closed_tail {c : Char} {body : List Char} (h : (Comment.block (c :: body)).Closed) :
    (Comment.block body).Closed := fun hinfix => h (List.infix_cons hinfix)

/-- No slash stands behind a star inside. -/
theorem ne_slash_of_closed {c : Char} {body : List Char}
    (h : (Comment.block ('*' :: c :: body)).Closed) : c ≠ '/' := by
  intro hc
  subst hc
  exact h ⟨[], body ++ ['*'], rfl⟩

/-- The scanner finds the end of a comment that is fine. -/
theorem readLongString_fine (rest : List Char) {body : List Char}
    (hclosed : (Comment.block body).Closed) (hfine : (Comment.block body).Fine) :
    readLongString (body ++ '*' :: '/' :: rest) = .ok rest := by
  induction body using star_induction with
  | nil => rw [List.nil_append, readLongString_star, if_pos rfl]
  | star => exact absurd hfine.2 (by decide)
  | pair c body ih =>
    rw [List.cons_append, List.cons_append, readLongString_star,
      if_neg (ne_slash_of_closed hclosed)]
    exact ih (closed_tail (closed_tail hclosed)) ((fine_star_cons c body).mp hfine)
  | other c body hc ih =>
    have hnul : c ≠ nul := fun heq => absurd (hfine.1 [] body (by rw [heq]; rfl)) (by decide)
    rw [List.cons_append, readLongString_other _ hnul hc]
    exact ih (closed_tail hclosed) ((fine_cons hnul hc).mp hfine)

/-- It does not find the end of another one: it stops at a NUL, or goes on behind it. -/
theorem readLongString_not_fine (rest : List Char) {body : List Char}
    (hclosed : (Comment.block body).Closed) (hfine : ¬ (Comment.block body).Fine) :
    readLongString (body ++ '*' :: '/' :: rest) = .error .assertion ∨
      readLongString (body ++ '*' :: '/' :: rest) = readLongString rest := by
  induction body using star_induction with
  | nil => exact absurd ⟨fun before after heq => (by cases before <;> cases heq), rfl⟩ hfine
  -- the star takes the closing star away, and the slash is a character of the comment
  | star =>
    right
    show readLongString ('*' :: '*' :: '/' :: rest) = readLongString rest
    rw [readLongString_star, if_neg (by decide), readLongString_other rest (by decide) (by decide)]
  | pair c body ih =>
    rw [List.cons_append, List.cons_append, readLongString_star,
      if_neg (ne_slash_of_closed hclosed)]
    exact ih (closed_tail (closed_tail hclosed)) fun h => hfine ((fine_star_cons c body).mpr h)
  | other c body hc ih =>
    rw [List.cons_append]
    -- a NUL stops the program
    by_cases hnul : c = nul
    · exact .inl (by rw [hnul, readLongString_nul])
    · rw [readLongString_other _ hnul hc]
      exact ih (closed_tail hclosed) fun h => hfine ((fine_cons hnul hc).mpr h)

/-! ## One step of the scanner -/

/-- A line comment is skipped to the end of its line. -/
theorem symbol_line (src : List Char) : symbol ('/' :: '/' :: src) = symbol (skipLine src) := by
  rw [symbol, if_neg (by decide), if_neg (by decide), if_neg (by decide), if_pos rfl, if_pos rfl]

/-- A block comment is skipped if its end is found, -/
theorem symbol_block_ok {src rest : List Char} (h : readLongString src = .ok rest) :
    symbol ('/' :: '*' :: src) = symbol rest := by
  rw [symbol, if_neg (by decide), if_neg (by decide), if_neg (by decide), if_pos rfl,
    if_neg (by decide), if_pos rfl]
  split
  · next herror =>
    rw [h] at herror
    cases herror
  · next rest' hok =>
    rw [h] at hok
    rw [Except.ok.inj hok]

/-- and stops the program if not. -/
theorem symbol_block_error {src : List Char} {e : ScanError} (h : readLongString src = .error e) :
    symbol ('/' :: '*' :: src) = .error e := by
  rw [symbol, if_neg (by decide), if_neg (by decide), if_neg (by decide), if_pos rfl,
    if_neg (by decide), if_pos rfl]
  split
  · next herror =>
    rw [h] at herror
    rw [Except.error.inj herror]
  · next rest' hok =>
    rw [h] at hok
    cases hok

/-- What is no blank and no comment is a token. -/
theorem symbol_token {b : Char} {src : List Char} (hb : b ≠ nul ∧ ¬ isBlank b ∧ ¬ isNewline b)
    (hslash : b = '/' → ∀ d ∈ src.head?, d ≠ '/' ∧ d ≠ '*') :
    symbol (b :: src) = .ok (some (readToken b src)) := by
  rw [symbol.eq_def]
  dsimp only
  rw [if_neg hb.1, if_neg hb.2.2, if_neg hb.2.1]
  by_cases hdiv : b = '/'
  · rw [if_pos hdiv, hdiv]
    cases src with
    | nil => rfl
    | cons d src =>
      obtain ⟨hline, hblock⟩ := hslash hdiv d rfl
      dsimp only
      rw [if_neg hline, if_neg hblock]
      rfl
  · rw [if_neg hdiv]

/-- A line comment without NUL goes up to the end of the line. -/
theorem skipLine_append {body rest : List Char} (hclosed : (Comment.line body).Closed)
    (hends : (Comment.line body).Ends rest) (hfine : (Comment.line body).Fine) :
    skipLine (body ++ rest) = rest := by
  rw [skipLine, List.dropWhile_append_of_pos]
  · cases rest with
    | nil => rfl
    | cons d rest =>
      rw [List.dropWhile_cons_of_neg]
      rw [hends d rfl]
      exact nofun
  · intro c hc
    have hnul : c ≠ nul := fun heq => hfine (heq ▸ hc)
    rw [hclosed c hc, Bool.not_false, Bool.true_and, bne_iff_ne]
    exact hnul

/-- A comment that is fine is skipped. -/
theorem symbol_comment {c : Comment} {rest : List Char} (hclosed : c.Closed) (hends : c.Ends rest)
    (hfine : c.Fine) : symbol (c.text ++ rest) = symbol rest := by
  cases c with
  | line body =>
    show symbol ('/' :: '/' :: (body ++ rest)) = symbol rest
    rw [symbol_line, skipLine_append hclosed hends hfine]
  | block body =>
    have htext : (Comment.block body).text ++ rest = '/' :: '*' :: (body ++ '*' :: '/' :: rest) := by
      simp [Comment.text]
    rw [htext, symbol_block_ok (readLongString_fine rest hclosed hfine)]

/-! ## The tokens before the comment -/

/-- A text that stops the program has no further token. -/
theorem tokens_of_error {src : List Char} {e : ScanError} (h : symbol src = .error e) :
    tokens src = ([], some e) := by
  rw [tokens]
  split <;> simp_all

/-- A text at its end has none. -/
theorem tokens_of_eof {src : List Char} (h : symbol src = .ok none) : tokens src = ([], none) := by
  rw [tokens]
  split <;> simp_all

/-- A token stands before those of the rest. -/
theorem tokens_of_token {src rest : List Char} {tok : Tok}
    (h : symbol src = .ok (some (tok, rest))) :
    tokens src = (tok :: (tokens rest).1, (tokens rest).2) := by
  rw [tokens]
  split <;> simp_all

/-- What the scanner finds first decides. -/
theorem tokens_congr {src src' : List Char} (h : symbol src = symbol src') :
    tokens src = tokens src' := by
  cases hs : symbol src' with
  | error e => rw [tokens_of_error (h.trans hs), tokens_of_error hs]
  | ok result =>
    cases result with
    | none => rw [tokens_of_eof (h.trans hs), tokens_of_eof hs]
    | some found => rw [tokens_of_token (h.trans hs), tokens_of_token hs]

/-- No token is continued by one of the two characters where it is not by the other. -/
def Alike (d d' : Char) : Prop :=
  isVarChar d = isVarChar d' ∧ isNumChar d = isNumChar d' ∧
    ∀ x ∈ ['=', '&', '|', '<', '>'], d = x ↔ d' = x

/-- A character is like itself. -/
theorem Alike.refl (d : Char) : Alike d d := ⟨rfl, rfl, fun _ _ => Iff.rfl⟩

/-- A slash and a blank continue no token. -/
theorem alike_blank : Alike '/' ' ' := by
  refine ⟨by decide, by decide, fun x hx => ?_⟩
  have hne : x ≠ '/' ∧ x ≠ ' ' := by
    simp only [List.mem_cons, List.not_mem_nil, or_false] at hx
    obtain rfl | rfl | rfl | rfl | rfl := hx <;> decide
  exact ⟨fun h => absurd h.symm hne.1, fun h => absurd h.symm hne.2⟩

/-- Where `p` stops in front of `d`, it stops in front of a character that is as good. -/
theorem span_alike {p : Char → Bool} {word : List Char} {d d' : Char} {rest : List Char}
    (rest' : List Char) (hp : p d = p d') (h : (word ++ d :: rest).dropWhile p = d :: rest) :
    (word ++ d' :: rest').dropWhile p = d' :: rest' ∧
      (word ++ d' :: rest').takeWhile p = (word ++ d :: rest).takeWhile p := by
  -- by induction on the word, which `p` holds of
  induction word with
  | nil =>
    have hd : ¬ p d = true := by
      intro hd
      rw [List.nil_append, List.dropWhile_cons_of_pos hd] at h
      have hle := (List.dropWhile_suffix (l := rest) p).length_le
      rw [h, List.length_cons] at hle
      omega
    have hd' : ¬ p d' = true := by rwa [← hp]
    rw [List.nil_append, List.nil_append, List.dropWhile_cons_of_neg hd',
      List.takeWhile_cons_of_neg hd', List.takeWhile_cons_of_neg hd]
    exact ⟨rfl, rfl⟩
  | cons c word ih =>
    by_cases hc : p c = true
    · rw [List.cons_append, List.dropWhile_cons_of_pos hc] at h
      obtain ⟨hdrop, htake⟩ := ih h
      rw [List.cons_append, List.cons_append, List.dropWhile_cons_of_pos hc,
        List.takeWhile_cons_of_pos hc, List.takeWhile_cons_of_pos hc, htake]
      exact ⟨hdrop, rfl⟩
    · rw [List.cons_append, List.dropWhile_cons_of_neg hc] at h
      have hlength := congrArg List.length h
      simp only [List.length_cons, List.length_append] at hlength
      omega

/-- `f` reads a token that ends where it is not continued. -/
def StopsAlike (f : List Char → Tok × List Char) : Prop :=
  ∀ word d d' rest rest' tok, Alike d d' → f (word ++ d :: rest) = (tok, d :: rest) →
    f (word ++ d' :: rest') = (tok, d' :: rest')

/-- A token of one character ends behind it. -/
theorem oneChar_stops (c : Char) : StopsAlike (oneChar c) := by
  intro word d d' rest rest' tok hd h
  obtain ⟨htok, hrest⟩ := Prod.mk.inj h
  obtain rfl : word = [] := by
    have hlength := congrArg List.length hrest
    simp only [List.length_cons, List.length_append] at hlength
    exact List.eq_nil_of_length_eq_zero (by omega)
  rw [oneChar, htok, List.nil_append]

/-- A token of one or two characters ends behind them. -/
theorem checkNext_stops {x : Char} {both : Tok} {other : List Char → Tok × List Char}
    (hx : x ∈ ['=', '&', '|', '<', '>']) (hother : StopsAlike other) :
    StopsAlike (checkNext x both other) := by
  intro word d d' rest rest' tok hd h
  -- by whether the second character belongs to the token
  cases word with
  | nil =>
    rw [List.nil_append, checkNext] at h ⊢
    by_cases hdx : d = x
    · rw [if_pos hdx] at h
      have hlength := congrArg List.length (Prod.mk.inj h).2
      simp only [List.length_cons] at hlength
      omega
    · rw [if_neg hdx] at h
      rw [if_neg (by rwa [← hd.2.2 x hx])]
      exact hother [] d d' rest rest' tok hd h
  | cons c word =>
    rw [List.cons_append, checkNext] at h ⊢
    by_cases hcx : c = x
    · rw [if_pos hcx] at h ⊢
      exact oneChar_stops c word d d' rest rest' (.sym c) hd (by rw [oneChar, (Prod.mk.inj h).2])
        |> fun hone => by rw [(Prod.mk.inj h).1, (Prod.mk.inj hone).2]
    · rw [if_neg hcx] at h ⊢
      exact hother (c :: word) d d' rest rest' tok hd h

/-- A number ends where it is not continued, -/
theorem readNum_stops (b : Char) : StopsAlike fun src => readNum (b :: src) := by
  intro word d d' rest rest' tok hd h
  obtain ⟨htok, hdrop⟩ := Prod.mk.inj h
  obtain ⟨hdrop', htake⟩ := @span_alike _ (b :: word) _ _ _ rest' hd.2.1 hdrop
  show readNum (b :: word ++ d' :: rest') = (tok, d' :: rest')
  rw [readNum, hdrop', htake]
  exact congrArg (·, d' :: rest') htok

/-- and so does a name. -/
theorem readVar_stops (b : Char) : StopsAlike fun src => readVar (b :: src) := by
  intro word d d' rest rest' tok hd h
  obtain ⟨htok, hdrop⟩ := Prod.mk.inj h
  obtain ⟨hdrop', htake⟩ := @span_alike _ (b :: word) _ _ _ rest' hd.1 hdrop
  show readVar (b :: word ++ d' :: rest') = (tok, d' :: rest')
  rw [readVar, hdrop', htake]
  exact congrArg (·, d' :: rest') htok

/-- A token that is no operator is a number, a name or one character. -/
theorem readToken_other {b : Char} (hb : b ∉ ['=', '!', '&', '|', '<', '>']) :
    readToken b = fun src =>
      if isNum b then readNum (b :: src)
      else if isLetter b then readVar (b :: src)
      else oneChar b src := by
  simp only [List.mem_cons, List.not_mem_nil, or_false, not_or] at hb
  obtain ⟨h₁, h₂, h₃, h₄, h₅, h₆⟩ := hb
  funext src
  rw [readToken] <;> assumption

/-- What follows a token matters only by whether it continues the token. -/
theorem readToken_stops (b : Char) : StopsAlike (readToken b) := by
  -- operators may have a second character
  by_cases hb : b ∈ ['=', '!', '&', '|', '<', '>']
  · simp only [List.mem_cons, List.not_mem_nil, or_false] at hb
    obtain rfl | rfl | rfl | rfl | rfl | rfl := hb
    · exact checkNext_stops (by decide) (oneChar_stops '=')
    · exact checkNext_stops (by decide) (oneChar_stops '!')
    · exact checkNext_stops (by decide) (oneChar_stops '&')
    · exact checkNext_stops (by decide) (oneChar_stops '|')
    · exact checkNext_stops (by decide) (checkNext_stops (by decide) (oneChar_stops '<'))
    · exact checkNext_stops (by decide) (checkNext_stops (by decide) (oneChar_stops '>'))
  · rw [readToken_other hb]
    by_cases hnum : isNum b = true
    · simp only [if_pos hnum]
      exact readNum_stops b
    · simp only [if_neg hnum]
      by_cases hletter : isLetter b = true
      · simp only [if_pos hletter]
        exact readVar_stops b
      · simp only [if_neg hletter]
        exact oneChar_stops b

/-- What follows a comment decides where it ends. -/
theorem ends_append {c : Comment} {pre src : List Char} (d : Char)
    (h : c.Ends (pre ++ ['/'])) : c.Ends (pre ++ d :: src) := by
  cases c with
  | block body => exact trivial
  | line body =>
    cases pre with
    | nil => exact absurd (h '/' rfl) (by decide)
    | cons b pre => exact h

/-- A token of the text before the comment is one before a blank. -/
theorem symbol_token_append {b : Char} {word pre src : List Char} {tok : Tok} {d : Char}
    (hb : b ≠ nul ∧ ¬ isBlank b ∧ ¬ isNewline b)
    (hslash : b = '/' → ∀ x ∈ (word ++ (pre ++ ['/'])).head?, x ≠ '/' ∧ x ≠ '*')
    (htok : readToken b (word ++ (pre ++ ['/'])) = (tok, pre ++ ['/'])) (hd : d = '/' ∨ d = ' ') :
    symbol (b :: (word ++ (pre ++ d :: src))) = .ok (some (tok, pre ++ d :: src)) := by
  -- a slash and a blank end the token alike
  have halike : Alike '/' d := by
    cases hd with
    | inl hd => exact hd ▸ Alike.refl '/'
    | inr hd => exact hd ▸ alike_blank
  have hhead : b = '/' → ∀ x ∈ (word ++ (pre ++ d :: src)).head?, x ≠ '/' ∧ x ≠ '*' := by
    intro hdiv
    have hnone := hslash hdiv
    cases word with
    | cons w word => exact hnone
    | nil =>
      cases pre with
      | cons p pre => exact hnone
      | nil => exact absurd rfl (hnone '/' rfl).1
  rw [symbol_token hb hhead]
  cases pre with
  | nil => rw [List.nil_append, readToken_stops b word '/' d [] src tok halike htok]
  | cons p pre =>
    rw [List.cons_append, readToken_stops b word p p _ (pre ++ d :: src) tok (Alike.refl p) htok]

/-- The tokens of the text before the comment are the same before a blank. -/
theorem Divided.tokens_append {pre : List Char} {cs : List Comment} (h : Divided '/' pre cs)
    (hfine : ∀ c ∈ cs, c.Fine) :
    ∃ toks, ∀ d, d = '/' ∨ d = ' ' → ∀ src, tokens (pre ++ d :: src) =
      (toks ++ (tokens (d :: src)).1, (tokens (d :: src)).2) := by
  -- by induction on the division of the text before
  induction h with
  | nil => exact ⟨[], fun _ _ _ => rfl⟩
  | blank b hb _ ih =>
    obtain ⟨toks, htoks⟩ := ih hfine
    refine ⟨toks, fun d hd src => ?_⟩
    rw [List.cons_append, tokens_congr (symbol_blank _ hb)]
    exact htoks d hd src
  | comment c hclosed hends _ ih =>
    obtain ⟨toks, htoks⟩ := ih fun c' hc' => hfine c' (List.mem_cons_of_mem c hc')
    refine ⟨toks, fun d hd src => ?_⟩
    rw [List.append_assoc, tokens_congr (symbol_comment hclosed (ends_append d hends)
      (hfine c List.mem_cons_self))]
    exact htoks d hd src
  | token b word tok hb hslash htok _ ih =>
    obtain ⟨toks, htoks⟩ := ih hfine
    refine ⟨tok :: toks, fun d hd src => ?_⟩
    rw [List.cons_append, List.cons_append, List.append_assoc,
      tokens_of_token (symbol_token_append hb hslash htok hd), htoks d hd src]
    rfl

/-! ## Comments and blanks -/

/-- A comment begins with a slash. -/
theorem Comment.text_eq_cons (c : Comment) : ∃ text, c.text = '/' :: text := by
  cases c <;> exact ⟨_, rfl⟩

/-- At a NUL the line comment is the end of the file. -/
theorem skipLine_nul {body : List Char} (rest : List Char) (hclosed : (Comment.line body).Closed)
    (hnul : nul ∈ body) : ∃ after, skipLine (body ++ rest) = nul :: after := by
  induction body with
  | nil => exact absurd hnul (List.not_mem_nil)
  | cons c body ih =>
    by_cases hc : c = nul
    · refine ⟨body ++ rest, ?_⟩
      rw [hc, List.cons_append, skipLine, List.dropWhile_cons_of_neg (by decide)]
    · obtain ⟨after, hafter⟩ := ih (fun d hd => hclosed d (List.mem_cons_of_mem c hd))
        ((List.mem_cons.mp hnul).resolve_left (Ne.symm hc))
      refine ⟨after, ?_⟩
      rw [List.cons_append, skipLine, List.dropWhile_cons_of_pos]
      · exact hafter
      · rw [hclosed c List.mem_cons_self, Bool.not_false, Bool.true_and, bne_iff_ne]
        exact hc

/-- The scanner ends at a NUL. -/
theorem symbol_nul (src : List Char) : symbol (nul :: src) = .ok none := by
  rw [symbol.eq_def]
  exact if_pos rfl

/-- In front of some text a comment that is not fine is no blank. -/
theorem Comment.not_blank {c : Comment} (hclosed : c.Closed) (hfine : ¬ c.Fine) :
    ∃ rest, c.Ends rest ∧
      ((tokens (c.text ++ rest)).1.length ≠ (tokens (' ' :: rest)).1.length ∨
        (tokens (c.text ++ rest)).2 ≠ (tokens (' ' :: rest)).2) := by
  cases c with
  | line body =>
    -- a NUL ends the text for `skipLine`, which goes over the line end, too
    have hnul : nul ∈ body := Classical.not_not.mp hfine
    -- what stands on the next line is lost
    obtain ⟨after, hafter⟩ := skipLine_nul ['\n', ';'] hclosed hnul
    have hcomment : tokens ('/' :: '/' :: (body ++ ['\n', ';'])) = ([], none) :=
      tokens_of_eof (by rw [symbol_line, hafter, symbol_nul])
    have hblank : tokens [' ', '\n', ';'] = ([.sym ';'], none) := by
      have hsymbol : symbol [';'] = .ok (some (.sym ';', [])) :=
        symbol_token (by decide) fun h => absurd h (by decide)
      rw [tokens_congr (symbol_blank _ (.inl rfl)), tokens_congr (symbol_blank _ (.inr rfl)),
        tokens_of_token hsymbol, tokens_of_eof (by rw [symbol])]
    refine ⟨['\n', ';'], fun d hd => ?_, .inl ?_⟩
    · rw [← Option.some.inj hd]
      rfl
    · rw [Comment.text, List.cons_append, List.cons_append, hcomment, hblank]
      exact Nat.zero_ne_one
  | block body =>
    -- the end is not found, so the program stops
    have herror : readLongString (body ++ ['*', '/']) = .error .assertion := by
      cases readLongString_not_fine [] hclosed hfine with
      | inl h => exact h
      | inr h => rw [h, readLongString]
    refine ⟨[], trivial, .inr ?_⟩
    rw [Comment.text, List.append_nil, tokens_of_error (symbol_block_error herror),
      tokens_of_eof (by rw [symbol_blank [] (.inl rfl), symbol])]
    exact Option.some_ne_none _

/-- In a text whose comments before this one are fine, the comment can be replaced by a blank,
whatever follows it, exactly if it is fine itself. -/
theorem comment_eq_blank_iff {pre : List Char} {cs : List Comment} (c : Comment)
    (hpre : Divided '/' pre cs) (hfine : ∀ c' ∈ cs, c'.Fine) (hclosed : c.Closed) :
    (∀ rest, c.Ends rest → tokens (pre ++ (c.text ++ rest)) = tokens (pre ++ ' ' :: rest)) ↔
      c.Fine := by
  obtain ⟨toks, htoks⟩ := hpre.tokens_append hfine
  obtain ⟨text, htext⟩ := c.text_eq_cons
  have hslash (rest : List Char) : tokens (pre ++ (c.text ++ rest)) =
      (toks ++ (tokens (c.text ++ rest)).1, (tokens (c.text ++ rest)).2) := by
    rw [htext]
    exact htoks '/' (.inl rfl) (text ++ rest)
  have hblank (rest : List Char) := htoks ' ' (.inr rfl) rest
  constructor
  · intro h
    apply Classical.byContradiction
    intro hnot
    obtain ⟨rest, hends, hdiffer⟩ := c.not_blank hclosed hnot
    have heq := h rest hends
    rw [hslash, hblank] at heq
    obtain ⟨htokens, hend⟩ := Prod.mk.inj heq
    cases hdiffer with
    | inl hlength => exact hlength (congrArg List.length (List.append_cancel_left htokens))
    | inr hne => exact hne hend
  · intro hc rest hends
    rw [hslash, hblank, tokens_congr (symbol_comment hclosed hends hc),
      tokens_congr (symbol_blank rest (.inl rfl))]

/-- A comment with a star in it, behind a name. -/
theorem comment_eq_blank_example :
    (∀ rest, (Comment.block [' ', '*', ' ']).Ends rest →
      tokens (['a'] ++ ((Comment.block [' ', '*', ' ']).text ++ rest)) =
        tokens (['a'] ++ ' ' :: rest)) ↔ (Comment.block [' ', '*', ' ']).Fine :=
  comment_eq_blank_iff (.block [' ', '*', ' '])
    (.token 'a' [] (.VAR "a") (by decide) (fun h => absurd h (by decide)) rfl .nil)
    (fun _ h => (nomatch h)) (show ¬ ['*', '/'] <:+: [' ', '*', ' ', '*'] by decide)

/-- The end of a comment of three stars is missed. -/
theorem three_stars :
    ¬ ∀ (pre : List Char) (cs : List Comment) (c : Comment) (rest : List Char),
      Divided '/' pre cs → c.Closed → c.Ends rest →
        tokens (pre ++ (c.text ++ rest)) = tokens (pre ++ ' ' :: rest) := by
  intro h
  have heq := h [] [] (.block ['*']) [] .nil (show ¬ ['*', '/'] <:+: ['*', '*'] by decide) trivial
  have herror : symbol ['/', '*', '*', '*', '/'] = .error .assertion :=
    symbol_block_error (by
      rw [readLongString_star, if_neg (by decide), readLongString_other [] (by decide) (by decide),
        readLongString])
  have hblank : symbol [' '] = .ok none := by rw [symbol_blank [] (.inl rfl), symbol]
  have hend := congrArg Prod.snd heq
  rw [show [] ++ ((Comment.block ['*']).text ++ []) = ['/', '*', '*', '*', '/'] from rfl,
    tokens_of_error herror, List.nil_append, tokens_of_eof hblank] at hend
  cases hend

end Athena.Idl
