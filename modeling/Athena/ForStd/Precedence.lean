/-!
# Operator precedence

A `Table` gives binary operators, one of which is also a prefix operator, their binding powers.
Between two operators an operand belongs to the later one if that binds on its left more
strongly than the earlier one on its right.

`Table.WellFormed` says which trees follow the table, and `Table.parse` is the parser with a
stack of operators: it finds the one tree that follows the table and has the given lexemes.
-/

namespace Athena.Precedence

/-- The operators, and how strongly each binds on its left and on its right. -/
structure Table (ω : Type) where
  left : ω → Nat
  right : ω → Nat
  /-- what the prefix operator is written as, and how strongly it binds -/
  minus : ω
  pre : Nat

/-- An expression with operands in `α` and operators in `ω`. -/
inductive Tree (α ω : Type) where
  | leaf (x : α)
  | neg (t : Tree α ω)
  | bin (l : Tree α ω) (o : ω) (r : Tree α ω)
  deriving DecidableEq, Repr

/-- What an expression is written with. -/
inductive Lexeme (α ω : Type) where
  | operand (x : α)
  | op (o : ω)
  deriving DecidableEq, Repr

variable {α β ω : Type}

/-- Another operand. -/
def Lexeme.map (f : α → β) : Lexeme α ω → Lexeme β ω
  | operand x => operand (f x)
  | op o => op o

namespace Tree

/-- The operators on the left edge, which take the first operand. -/
def leftEdge : Tree α ω → List ω
  | leaf _ => []
  | neg _ => []
  | bin l o _ => o :: l.leftEdge

/-- The operators on the right edge, which take the last operand; the prefix operator is
`none`. -/
def rightEdge : Tree α ω → List (Option ω)
  | leaf _ => []
  | neg t => none :: t.rightEdge
  | bin _ o r => some o :: r.rightEdge

/-- The operators in their order. -/
def ops : Tree α ω → List (Option ω)
  | leaf _ => []
  | neg t => none :: t.ops
  | bin l o r => l.ops ++ some o :: r.ops

/-- Other operands. -/
def map (f : α → β) : Tree α ω → Tree β ω
  | leaf x => leaf (f x)
  | neg t => neg (t.map f)
  | bin l o r => bin (l.map f) o (r.map f)

/-- Other operands leave the left edge as it is. -/
@[simp] theorem leftEdge_map (f : α → β) (t : Tree α ω) : (t.map f).leftEdge = t.leftEdge := by
  induction t with
  | leaf x => rfl
  | neg t _ => rfl
  | bin l o r ihl _ => rw [map, leftEdge, ihl, leftEdge]

/-- Other operands leave the right edge as it is. -/
@[simp] theorem rightEdge_map (f : α → β) (t : Tree α ω) :
    (t.map f).rightEdge = t.rightEdge := by
  induction t with
  | leaf x => rfl
  | neg t ih => rw [map, rightEdge, ih, rightEdge]
  | bin l o r _ ihr => rw [map, rightEdge, ihr, rightEdge]

end Tree

namespace Table

variable (P : Table ω)

/-- How strongly an operator binds what follows. -/
def power : Option ω → Nat
  | none => P.pre
  | some o => P.right o

/-- The tree as it is written. -/
def lexemes : Tree α ω → List (Lexeme α ω)
  | .leaf x => [.operand x]
  | .neg t => .op P.minus :: lexemes t
  | .bin l o r => lexemes l ++ .op o :: lexemes r

/-- Each operator has the operands that the table gives it. -/
def WellFormed : Tree α ω → Prop
  | .leaf _ => True
  | .neg t => WellFormed t ∧ ∀ q ∈ t.leftEdge, P.pre < P.left q
  | .bin l o r => WellFormed l ∧ WellFormed r ∧ (∀ p ∈ l.rightEdge, P.left o ≤ P.power p) ∧
      ∀ q ∈ r.leftEdge, P.right o < P.left q

variable {P}

/-- Whether a tree follows the table does not depend on its operands. -/
@[simp] theorem wellFormed_map (f : α → β) (t : Tree α ω) :
    P.WellFormed (t.map f) ↔ P.WellFormed t := by
  induction t with
  | leaf x => exact Iff.rfl
  | neg t ih => simp only [Tree.map, WellFormed, ih, Tree.leftEdge_map]
  | bin l o r ihl ihr =>
    simp only [Tree.map, WellFormed, ihl, ihr, Tree.leftEdge_map, Tree.rightEdge_map]

/-- Other operands are written in the places of the old ones. -/
theorem lexemes_map (f : α → β) (t : Tree α ω) :
    P.lexemes (t.map f) = (P.lexemes t).map (Lexeme.map f) := by
  induction t with
  | leaf x => rfl
  | neg t ih => rw [Tree.map, lexemes, ih, lexemes, List.map_cons, Lexeme.map]
  | bin l o r ihl ihr =>
    rw [Tree.map, lexemes, ihl, ihr, lexemes, List.map_append, List.map_cons, Lexeme.map]

/-- The operators of a text in their order: one that stands where an operand is expected is a
prefix operator. -/
def operators : Bool → List (Lexeme α ω) → List (Option ω)
  | _, [] => []
  | _, .operand _ :: ls => operators false ls
  | true, .op _ :: ls => none :: operators true ls
  | false, .op o :: ls => some o :: operators true ls

/-- The operators of a written tree stand before those of what is written behind it. -/
theorem operators_lexemes (t : Tree α ω) (ls : List (Lexeme α ω)) :
    operators true (P.lexemes t ++ ls) = t.ops ++ operators false ls := by
  induction t generalizing ls with
  | leaf x => rfl
  | neg t ih =>
    rw [lexemes, List.cons_append, operators, ih, Tree.ops, List.cons_append]
  | bin l o r ihl ihr =>
    rw [lexemes, List.append_assoc, ihl, List.cons_append, operators, ihr, Tree.ops,
      List.append_assoc, List.cons_append]

/-- The operators of a tree are those of the text it is written as. -/
theorem ops_eq_operators (t : Tree α ω) : t.ops = operators true (P.lexemes t) := by
  have h := operators_lexemes (P := P) t []
  rw [List.append_nil] at h
  rw [h, operators, List.append_nil]

variable (P)

/-! ## The parser -/

/-- An operator that waits for what follows. -/
inductive Frame (α ω : Type) where
  | neg
  | bin (l : Tree α ω) (o : ω)

namespace Frame

/-- The operator that waits. -/
def op : Frame α ω → Option ω
  | neg => none
  | bin _ o => some o

/-- The waiting operator gets its last operand. -/
def close (t : Tree α ω) : Frame α ω → Tree α ω
  | neg => .neg t
  | bin l o => .bin l o t

end Frame

/-- The operators that bind as strongly as `next` get their operands. -/
def reduce (next : Nat) : List (Frame α ω) → Tree α ω → List (Frame α ω) × Tree α ω
  | [], t => ([], t)
  | f :: fs, t => if next ≤ P.power f.op then reduce next fs (f.close t) else (f :: fs, t)

/-- At the end of the text all waiting operators get their operands. -/
def closeAll : List (Frame α ω) → Tree α ω → Tree α ω
  | [], t => t
  | f :: fs, t => closeAll fs (f.close t)

/-- `t` is the operand that has been read, if one has been. -/
def run [DecidableEq ω] :
    List (Frame α ω) → Option (Tree α ω) → List (Lexeme α ω) → Option (Tree α ω)
  | fs, none, .operand x :: ls => run fs (some (.leaf x)) ls
  | fs, none, .op o :: ls => if o = P.minus then run (.neg :: fs) none ls else none
  | fs, some t, .op o :: ls =>
    let (fs, t) := P.reduce (P.left o) fs t
    run (.bin t o :: fs) none ls
  | fs, some t, [] => some (closeAll fs t)
  | _, _, _ => none

/-- The parser of a whole expression. -/
def parse [DecidableEq ω] (ls : List (Lexeme α ω)) : Option (Tree α ω) := P.run [] none ls

/-! ## Trees are found -/

/-- The operators on the right edge of a tree, as they wait for its last operand. -/
def openFrames : Tree α ω → List (Frame α ω)
  | .leaf _ => []
  | .neg t => openFrames t ++ [Frame.neg]
  | .bin l o r => openFrames r ++ [Frame.bin l o]

/-- The last operand. -/
def lastOperand : Tree α ω → Tree α ω
  | .leaf x => .leaf x
  | .neg t => lastOperand t
  | .bin _ _ r => lastOperand r

/-- Closing the open right edge of a tree gives the tree back. -/
theorem closeAll_openFrames (fs : List (Frame α ω)) (t : Tree α ω) :
    closeAll (openFrames t ++ fs) (lastOperand t) = closeAll fs t := by
  induction t generalizing fs with
  | leaf x => rfl
  | neg t ih =>
    rw [openFrames, lastOperand, List.append_assoc, ih]
    rfl
  | bin l o r _ ihr =>
    rw [openFrames, lastOperand, List.append_assoc, ihr]
    rfl

variable {P}

/-- A right edge that binds at least as strongly as `next` is closed as a whole. -/
theorem reduce_openFrames {next : Nat} (fs : List (Frame α ω)) {t : Tree α ω}
    (h : ∀ p ∈ t.rightEdge, next ≤ P.power p) :
    P.reduce next (openFrames t ++ fs) (lastOperand t) = P.reduce next fs t := by
  induction t generalizing fs with
  | leaf x => rfl
  | neg t ih =>
    rw [openFrames, lastOperand, List.append_assoc,
      ih _ fun p hp => h p (List.mem_cons_of_mem _ hp)]
    exact if_pos (h none List.mem_cons_self)
  | bin l o r _ ihr =>
    rw [openFrames, lastOperand, List.append_assoc,
      ihr _ fun p hp => h p (List.mem_cons_of_mem _ hp)]
    exact if_pos (h (some o) List.mem_cons_self)

/-- The last of the waiting operators binds less strongly than `next`. -/
def Below (P : Table ω) (fs : List (Frame α ω)) (next : Nat) : Prop :=
  ∀ f ∈ fs.head?, P.power f.op < next

/-- Where no operator binds strongly enough, none gets its operand. -/
theorem reduce_of_below {fs : List (Frame α ω)} {next : Nat} (h : P.Below fs next)
    (t : Tree α ω) : P.reduce next fs t = (fs, t) := by
  cases fs with
  | nil => rfl
  | cons f fs =>
    have hlt := h f rfl
    exact if_neg (by omega)

variable [DecidableEq ω]

/-- The parser reads a tree that follows the table. -/
theorem run_lexemes {fs : List (Frame α ω)} {t : Tree α ω} (ls : List (Lexeme α ω))
    (hwf : P.WellFormed t) (hbelow : ∀ q ∈ t.leftEdge, P.Below fs (P.left q)) :
    P.run fs none (P.lexemes t ++ ls) = P.run (openFrames t ++ fs) (some (lastOperand t)) ls := by
  -- by induction on the tree: the frames below it stay as they are until its root is closed
  induction t generalizing fs ls with
  | leaf x => rfl
  | neg t ih =>
    obtain ⟨ht, hpre⟩ := hwf
    rw [lexemes, List.cons_append, run, if_pos rfl, openFrames, lastOperand, List.append_assoc]
    refine ih ls ht fun q hq f hf => ?_
    rw [← Option.some.inj hf]
    exact hpre q hq
  | bin l o r ihl ihr =>
    obtain ⟨hl, hr, hleft, hright⟩ := hwf
    rw [lexemes, List.append_assoc,
      ihl _ hl fun q hq => hbelow q (List.mem_cons_of_mem o hq), List.cons_append, run,
      reduce_openFrames fs hleft, reduce_of_below (hbelow o List.mem_cons_self)]
    rw [openFrames, lastOperand, List.append_assoc]
    refine ihr ls hr fun q hq f hf => ?_
    rw [← Option.some.inj hf]
    exact hright q hq

/-! ## Only such trees are found -/

/-- What has been read before the operand. -/
def framesLexemes (P : Table ω) : List (Frame α ω) → List (Lexeme α ω)
  | [] => []
  | .neg :: fs => framesLexemes P fs ++ [Lexeme.op P.minus]
  | .bin l o :: fs => framesLexemes P fs ++ (P.lexemes l ++ [Lexeme.op o])

/-- A tree that can stand behind the waiting operators. -/
structure Follows (P : Table ω) (fs : List (Frame α ω)) (t : Tree α ω) : Prop where
  wellFormed : P.WellFormed t
  below : ∀ q ∈ t.leftEdge, P.Below fs (P.left q)

/-- The waiting operators have the operands that the table gives them. -/
def FramesOk (P : Table ω) : List (Frame α ω) → Prop
  | [] => True
  | .neg :: fs => FramesOk P fs
  | .bin l o :: fs => P.Follows fs l ∧ (∀ p ∈ l.rightEdge, P.left o ≤ P.power p) ∧
      P.Below fs (P.left o) ∧ FramesOk P fs

omit [DecidableEq ω] in
/-- What waits below the last operator is right too. -/
theorem FramesOk.tail {f : Frame α ω} {fs : List (Frame α ω)} (h : P.FramesOk (f :: fs)) :
    P.FramesOk fs := by
  cases f with
  | neg => exact h
  | bin l o => exact h.2.2.2

omit [DecidableEq ω] in
/-- A waiting operator gets its operand. -/
theorem Follows.close {f : Frame α ω} {fs : List (Frame α ω)} {t : Tree α ω}
    (h : P.Follows (f :: fs) t) (hfs : P.FramesOk (f :: fs)) : P.Follows fs (f.close t) := by
  have hedge : ∀ q ∈ t.leftEdge, P.power f.op < P.left q := fun q hq => h.below q hq f rfl
  cases f with
  | neg => exact ⟨⟨h.wellFormed, hedge⟩, fun q hq => (nomatch hq)⟩
  | bin l o =>
    obtain ⟨hl, hleft, hbelow, -⟩ := hfs
    refine ⟨⟨hl.wellFormed, h.wellFormed, hleft, hedge⟩, fun q hq => ?_⟩
    cases List.mem_cons.mp hq with
    | inl hqo => exact hqo ▸ hbelow
    | inr hql => exact hl.below q hql

omit [DecidableEq ω] in
/-- Closing an operator does not change what has been read. -/
theorem lexemes_close (f : Frame α ω) (fs : List (Frame α ω)) (t : Tree α ω) :
    framesLexemes P fs ++ P.lexemes (f.close t) = framesLexemes P (f :: fs) ++ P.lexemes t := by
  cases f with
  | neg => simp [framesLexemes, Frame.close, lexemes]
  | bin l o => simp [framesLexemes, Frame.close, lexemes]

omit [DecidableEq ω] in
/-- What `reduce` leaves: the operators that bind less strongly, and an operand that ends
before `next`. -/
theorem reduce_spec (next : Nat) {fs : List (Frame α ω)} {t : Tree α ω} (hfs : P.FramesOk fs)
    (ht : P.Follows fs t) (hnext : ∀ p ∈ t.rightEdge, next ≤ P.power p) :
    P.FramesOk (P.reduce next fs t).1 ∧ P.Follows (P.reduce next fs t).1 (P.reduce next fs t).2 ∧
      (∀ p ∈ (P.reduce next fs t).2.rightEdge, next ≤ P.power p) ∧
      P.Below (P.reduce next fs t).1 next ∧
      framesLexemes P (P.reduce next fs t).1 ++ P.lexemes (P.reduce next fs t).2 =
        framesLexemes P fs ++ P.lexemes t := by
  induction fs generalizing t with
  | nil => exact ⟨hfs, ht, hnext, fun f hf => (nomatch hf), rfl⟩
  | cons f fs ih =>
    rw [reduce]
    by_cases hf : next ≤ P.power f.op
    · rw [if_pos hf]
      have hnext' : ∀ p ∈ (f.close t).rightEdge, next ≤ P.power p := by
        intro p hp
        cases f <;> exact (List.mem_cons.mp hp).elim (fun heq => heq ▸ hf) (hnext p)
      obtain ⟨hok, hfollows, hedge, hbelow, hlexemes⟩ := ih hfs.tail (ht.close hfs) hnext'
      exact ⟨hok, hfollows, hedge, hbelow, hlexemes.trans (lexemes_close f fs t)⟩
    · rw [if_neg hf]
      refine ⟨hfs, ht, hnext, fun g hg => ?_, rfl⟩
      obtain rfl := Option.some.inj hg
      omega

omit [DecidableEq ω] in
/-- At the end of the text the waiting operators become a tree that follows the table and is
    what has been read. -/
theorem closeAll_spec {fs : List (Frame α ω)} {t : Tree α ω} (hfs : P.FramesOk fs)
    (ht : P.Follows fs t) :
    P.WellFormed (closeAll fs t) ∧
      P.lexemes (closeAll fs t) = framesLexemes P fs ++ P.lexemes t := by
  induction fs generalizing t with
  | nil => exact ⟨ht.wellFormed, rfl⟩
  | cons f fs ih =>
    obtain ⟨hwf, hlexemes⟩ := ih hfs.tail (ht.close hfs)
    exact ⟨hwf, hlexemes.trans (lexemes_close f fs t)⟩

omit [DecidableEq ω] in
/-- An operand that has not been read is no tree. -/
theorem noOperand : ∀ z ∈ (none : Option (Tree α ω)), ∃ y, z = .leaf y := nofun

/-- What is parsed has the tokens of its frames, its operand and the text. -/
theorem run_sound {fs : List (Frame α ω)} {cur : Option (Tree α ω)} {ls : List (Lexeme α ω)}
    {t : Tree α ω} (hfs : P.FramesOk fs) (hcur : ∀ x ∈ cur, ∃ y, x = .leaf y)
    (hrun : P.run fs cur ls = some t) :
    P.WellFormed t ∧ P.lexemes t = framesLexemes P fs ++ (cur.elim [] P.lexemes ++ ls) := by
  induction ls generalizing fs cur with
  | nil =>
    cases cur with
    | none => exact nomatch hrun
    | some x =>
      obtain ⟨y, rfl⟩ := hcur x rfl
      obtain rfl := Option.some.inj hrun
      exact closeAll_spec hfs ⟨trivial, fun q hq => (nomatch hq)⟩
  | cons l ls ih =>
    cases l with
    -- two operands in a row are no expression
    | operand x =>
      cases cur with
      | some _ => exact nomatch hrun
      | none => exact ih hfs (fun z hz => ⟨x, (Option.some.inj hz).symm⟩) hrun
    | op o =>
      cases cur with
      -- without an operand the only operator is the sign
      | none =>
        rw [run] at hrun
        by_cases ho : o = P.minus
        · rw [if_pos ho] at hrun
          have hfs' : P.FramesOk (.neg :: fs) := hfs
          obtain ⟨hwf, hlexemes⟩ := ih hfs' noOperand hrun
          refine ⟨hwf, ?_⟩
          rw [hlexemes, framesLexemes, ho, List.append_assoc]
          rfl
        · rw [if_neg ho] at hrun
          exact nomatch hrun
      | some x =>
        -- the operand is complete: what binds tighter is closed before the operator is pushed
        obtain ⟨y, rfl⟩ := hcur x rfl
        obtain ⟨hok, hfollows, hedge, hbelow, hlexemes⟩ :=
          reduce_spec (P.left o) hfs ⟨trivial, fun q hq => (nomatch hq)⟩
            (t := .leaf y) fun p hp => (nomatch hp)
        have hfs' : P.FramesOk (.bin (P.reduce (P.left o) fs (.leaf y)).2 o ::
            (P.reduce (P.left o) fs (.leaf y)).1) := ⟨hfollows, hedge, hbelow, hok⟩
        obtain ⟨hwf, hread⟩ := ih hfs' noOperand hrun
        refine ⟨hwf, ?_⟩
        rw [hread, framesLexemes, ← List.append_assoc (framesLexemes P _), hlexemes]
        simp

/-- The parser finds the tree that follows the table, and there is only that one. -/
theorem parse_eq_some_iff (ls : List (Lexeme α ω)) (t : Tree α ω) :
    P.parse ls = some t ↔ P.WellFormed t ∧ P.lexemes t = ls := by
  constructor
  · intro h
    have hfs : P.FramesOk ([] : List (Frame α ω)) := trivial
    exact run_sound hfs noOperand h
  · intro ⟨hwf, hlexemes⟩
    have hrun := @run_lexemes _ _ _ _ [] _ [] hwf fun q _ f hf => (nomatch hf)
    rw [List.append_nil, hlexemes] at hrun
    rw [parse, hrun, run, closeAll_openFrames]
    rfl

/-- Operators and operands that follow an operand. -/
def chain (rest : List (ω × α)) : List (Lexeme α ω) :=
  rest.flatMap fun p => [.op p.1, .operand p.2]

/-- There is a tree where operators and operands alternate. -/
theorem run_chain (fs : List (Frame α ω)) (t : Tree α ω) (rest : List (ω × α)) :
    ∃ t', P.run fs (some t) (chain rest) = some t' := by
  induction rest generalizing fs t with
  | nil => exact ⟨_, rfl⟩
  | cons p rest ih => exact ih _ _

/-- Operands with operators between them are an expression. -/
theorem parse_chain (x : α) (rest : List (ω × α)) :
    ∃ t, P.parse (.operand x :: chain rest) = some t := run_chain [] (.leaf x) rest

/-- So they are behind a sign. -/
theorem parse_neg_chain (x : α) (rest : List (ω × α)) :
    ∃ t, P.parse (.op P.minus :: .operand x :: chain rest) = some t := by
  obtain ⟨t, ht⟩ := run_chain (P := P) [.neg] (.leaf x) rest
  refine ⟨t, ?_⟩
  rw [parse, run, if_pos rfl]
  exact ht

end Table

/-! ## Two tables -/

namespace Table

variable {P Q : Table ω} {t l r : Tree α ω} {o : ω} {n : Nat}

/-- Two places in an expression of which one takes the operand between them, whatever else there
is: only operators stand between them that bind more strongly than the earlier one, and not less
strongly than the later one. -/
def Sees (P : Table ω) (ops : List (Option ω)) (i j : Nat) (a : Option ω) (b : ω) : Prop :=
  i < j ∧ ops[i]? = some a ∧ ops[j]? = some (some b) ∧
    ∀ k m, i < k → k < j → ops[k]? = some m → P.power a < P.power m ∧ P.left b ≤ P.power m

/-- All operators are left-associative, and the prefix operator binds most strongly. -/
structure LeftAssoc (P : Table ω) : Prop where
  right_eq : ∀ o, P.right o = P.left o
  pre_lt : ∀ o, P.left o < P.pre

/-- A left-associative operator binds as strongly on its right as on its left. -/
theorem LeftAssoc.power_some (h : P.LeftAssoc) (o : ω) : P.power (some o) = P.left o :=
  h.right_eq o

/-- No operator of a tree binds less strongly than those on its left edge. -/
theorem LeftAssoc.lt_power (h : P.LeftAssoc) (hwf : P.WellFormed t) (hn : n < P.pre)
    (hedge : ∀ q ∈ t.leftEdge, n < P.left q) : ∀ m ∈ t.ops, n < P.power m := by
  induction t generalizing n with
  | leaf x => exact fun m hm => (nomatch hm)
  | neg t ih =>
    intro m hm
    cases List.mem_cons.mp hm with
    | inl heq => exact heq ▸ hn
    | inr hm => exact ih hwf.1 hn (fun q hq => Nat.lt_trans hn (hwf.2 q hq)) m hm
  | bin l o r ihl ihr =>
    obtain ⟨hl, hr, -, hright⟩ := hwf
    have ho : n < P.left o := hedge o List.mem_cons_self
    intro m hm
    cases List.mem_append.mp hm with
    | inl hm => exact ihl hl hn (fun q hq => hedge q (List.mem_cons_of_mem o hq)) m hm
    | inr hm =>
      cases List.mem_cons.mp hm with
      | inl heq => rwa [heq, h.power_some]
      | inr hm =>
        refine ihr hr hn (fun q hq => Nat.lt_trans ho ?_) m hm
        have := hright q hq
        rwa [h.right_eq] at this

/-- Nor less strongly than those on its right edge. -/
theorem LeftAssoc.le_power (h : P.LeftAssoc) (hwf : P.WellFormed t)
    (hedge : ∀ p ∈ t.rightEdge, n ≤ P.power p) : ∀ m ∈ t.ops, n ≤ P.power m := by
  induction t generalizing n with
  | leaf x => exact fun m hm => (nomatch hm)
  | neg t ih =>
    intro m hm
    cases List.mem_cons.mp hm with
    | inl heq => exact heq ▸ hedge none List.mem_cons_self
    | inr hm => exact ih hwf.1 (fun p hp => hedge p (List.mem_cons_of_mem _ hp)) m hm
  | bin l o r ihl ihr =>
    obtain ⟨hl, hr, hleft, -⟩ := hwf
    have ho : n ≤ P.power (some o) := hedge (some o) List.mem_cons_self
    intro m hm
    cases List.mem_append.mp hm with
    | inl hm =>
      refine ihl hl (fun p hp => Nat.le_trans ho ?_) m hm
      rw [h.power_some]
      exact hleft p hp
    | inr hm =>
      cases List.mem_cons.mp hm with
      | inl heq => exact heq ▸ ho
      | inr hm => exact ihr hr (fun p hp => hedge p (List.mem_cons_of_mem _ hp)) m hm

/-- The operand of a prefix operator has no binary one. -/
theorem LeftAssoc.ops_neg (h : P.LeftAssoc) (hwf : P.WellFormed (.neg t)) :
    ∀ m ∈ t.ops, m = none := by
  induction t with
  | leaf x => exact fun m hm => (nomatch hm)
  | neg t ih =>
    intro m hm
    exact (List.mem_cons.mp hm).elim id (ih hwf.1 m)
  | bin l o r _ _ =>
    have := hwf.2 o List.mem_cons_self
    have := h.pre_lt o
    omega

/-! The places of an expression `l o r` are those of `l`, that of `o` and those of `r`. -/

/-- The places before the root operator are those of the left part. -/
theorem ops_left (l : List (Option ω)) (o : ω) (r : List (Option ω)) {i : Nat}
    (hi : i < l.length) : (l ++ some o :: r)[i]? = l[i]? := List.getElem?_append_left hi

/-- The root operator stands behind the left part. -/
theorem ops_middle (l : List (Option ω)) (o : ω) (r : List (Option ω)) :
    (l ++ some o :: r)[l.length]? = some (some o) := by
  rw [List.getElem?_append_right (Nat.le_refl _), Nat.sub_self]
  rfl

/-- The places behind the root operator are those of the right part. -/
theorem ops_right (l : List (Option ω)) (o : ω) (r : List (Option ω)) (i : Nat) :
    (l ++ some o :: r)[l.length + 1 + i]? = r[i]? := by
  rw [List.getElem?_append_right (by omega),
    show l.length + 1 + i - l.length = i + 1 by omega]
  rfl

/-- A place is in the left part, at the root operator or in the right part. -/
theorem ops_cases (l : List (Option ω)) (i : Nat) :
    i < l.length ∨ i = l.length ∨ ∃ i', i = l.length + 1 + i' := by
  by_cases hi : i < l.length + 1
  · omega
  · exact .inr (.inr ⟨i - (l.length + 1), by omega⟩)

/-- All operators behind this one bind more strongly. -/
def Last (P : Table ω) (ops : List (Option ω)) (i : Nat) (a : Option ω) : Prop :=
  ops[i]? = some a ∧ ∀ k m, i < k → ops[k]? = some m → P.power a < P.power m

/-- No operator before this one binds less strongly. -/
def First (P : Table ω) (ops : List (Option ω)) (j : Nat) (b : ω) : Prop :=
  ops[j]? = some (some b) ∧ ∀ k m, k < j → ops[k]? = some m → P.left b ≤ P.power m

/-- No operator of the left part binds less strongly than the root. -/
theorem LeftAssoc.le_left (h : P.LeftAssoc) (hwf : P.WellFormed (.bin l o r)) {m : Option ω}
    (hm : m ∈ l.ops) : P.left o ≤ P.power m := h.le_power hwf.1 hwf.2.2.1 m hm

/-- Every operator of the right part binds more strongly than the root. -/
theorem LeftAssoc.lt_right (h : P.LeftAssoc) (hwf : P.WellFormed (.bin l o r)) {m : Option ω}
    (hm : m ∈ r.ops) : P.left o < P.power m :=
  h.lt_power hwf.2.1 (h.pre_lt o) (fun q hq => h.right_eq o ▸ hwf.2.2.2 q hq) m hm

/-- An operator is on the right edge exactly if all operators behind it bind more strongly. -/
theorem LeftAssoc.mem_rightEdge_iff (h : P.LeftAssoc) (hwf : P.WellFormed t) (a : Option ω) :
    a ∈ t.rightEdge ↔ ∃ i, P.Last t.ops i a := by
  induction t with
  | leaf x => exact ⟨fun ha => (nomatch ha), fun ⟨i, hi, _⟩ => (nomatch hi)⟩
  | neg t ih =>
    -- all operators are prefix operators
    have hnone := h.ops_neg hwf
    have hops : ∀ m ∈ none :: t.ops, m = none := List.forall_mem_cons.mpr ⟨rfl, hnone⟩
    constructor
    · intro ha
      obtain rfl : a = none := by
        cases List.mem_cons.mp ha with
        | inl heq => exact heq
        | inr ha =>
          obtain ⟨i, hi, -⟩ := (ih hwf.1).mp ha
          exact hnone a (List.mem_of_getElem? hi)
      refine ⟨t.ops.length, ?_, fun k m hk hm => ?_⟩
      · obtain ⟨m, hm⟩ : ∃ m, (none :: t.ops)[t.ops.length]? = some m :=
          ⟨_, List.getElem?_eq_getElem (Nat.lt_succ_self _)⟩
        exact hm.trans (congrArg some (hops m (List.mem_of_getElem? hm)))
      · obtain ⟨hlt, -⟩ := List.getElem?_eq_some_iff.mp hm
        rw [Tree.ops, List.length_cons] at hlt
        omega
    · intro ⟨i, hi, _⟩
      rw [hops a (List.mem_of_getElem? hi)]
      exact List.mem_cons_self
  | bin l o r _ ihr =>
    rw [Tree.rightEdge, List.mem_cons, ihr hwf.2.1]
    constructor
    · intro ha
      cases ha with
      | inl ha =>
        subst ha
        refine ⟨l.ops.length, ops_middle _ o _, fun k m hk hm => ?_⟩
        -- the operators behind the root are those of the right part
        obtain hlt | heq | ⟨k', rfl⟩ := ops_cases l.ops k
        · omega
        · omega
        · rw [Tree.ops, ops_right] at hm
          rw [h.power_some]
          exact h.lt_right hwf (List.mem_of_getElem? hm)
      | inr ha =>
        obtain ⟨i, hi, hlast⟩ := ha
        refine ⟨l.ops.length + 1 + i, (ops_right _ o _ i).trans hi, fun k m hk hm => ?_⟩
        -- an operator behind the place in the right part is in the right part as well
        obtain hlt | heq | ⟨k', rfl⟩ := ops_cases l.ops k
        · omega
        · omega
        · rw [Tree.ops, ops_right] at hm
          exact hlast k' m (by omega) hm
    · intro ⟨i, hi, hlast⟩
      -- the last weaker operator cannot be in the left part, where the root is behind it
      obtain hlt | heq | ⟨i', rfl⟩ := ops_cases l.ops i
      · -- `o` is behind it, and does not bind more strongly
        rw [Tree.ops, ops_left _ o _ hlt] at hi
        have hle := h.le_left hwf (List.mem_of_getElem? hi)
        have hgt := hlast l.ops.length (some o) hlt (ops_middle _ o _)
        rw [h.power_some] at hgt
        omega
      · rw [heq, Tree.ops, ops_middle] at hi
        exact .inl (Option.some.inj hi).symm
      · refine .inr ⟨i', (ops_right _ o _ i').symm.trans hi, fun k m hk hm => ?_⟩
        exact hlast (l.ops.length + 1 + k) m (by omega) ((ops_right _ o _ k).trans hm)

/-- An operator is on the left edge exactly if no operator before it binds less strongly. -/
theorem LeftAssoc.mem_leftEdge_iff (h : P.LeftAssoc) (hwf : P.WellFormed t) (b : ω) :
    b ∈ t.leftEdge ↔ ∃ j, P.First t.ops j b := by
  induction t with
  | leaf x => exact ⟨fun hb => (nomatch hb), fun ⟨j, hj, _⟩ => (nomatch hj)⟩
  | neg t _ =>
    refine ⟨fun hb => (nomatch hb), fun ⟨j, hj, _⟩ => ?_⟩
    have hops : ∀ m ∈ none :: t.ops, m = none := List.forall_mem_cons.mpr ⟨rfl, h.ops_neg hwf⟩
    exact nomatch hops _ (List.mem_of_getElem? hj)
  | bin l o r ihl _ =>
    rw [Tree.leftEdge, List.mem_cons, ihl hwf.1]
    constructor
    · intro hb
      cases hb with
      | inl hb =>
        subst hb
        refine ⟨l.ops.length, ops_middle _ b _, fun k m hk hm => ?_⟩
        rw [Tree.ops, ops_left _ b _ hk] at hm
        exact h.le_left hwf (List.mem_of_getElem? hm)
      | inr hb =>
        obtain ⟨j, hj, hfirst⟩ := hb
        have hlt := (List.getElem?_eq_some_iff.mp hj).1
        refine ⟨j, (ops_left _ o _ hlt).trans hj, fun k m hk hm => ?_⟩
        rw [Tree.ops, ops_left _ o _ (by omega)] at hm
        exact hfirst k m hk hm
    · intro ⟨j, hj, hfirst⟩
      -- the first operator that is not stronger cannot be in the right part, which the root is
      -- before
      obtain hlt | heq | ⟨j', rfl⟩ := ops_cases l.ops j
      · refine .inr ⟨j, (ops_left _ o _ hlt).symm.trans hj, fun k m hk hm => ?_⟩
        exact hfirst k m hk ((ops_left _ o _ (by omega)).trans hm)
      · rw [heq, Tree.ops, ops_middle] at hj
        exact .inl (Option.some.inj (Option.some.inj hj)).symm
      · -- `o` is before it, and binds less strongly
        rw [Tree.ops, ops_right] at hj
        have hgt := h.lt_right hwf (List.mem_of_getElem? hj)
        have hle := hfirst l.ops.length (some o) (by omega) (ops_middle _ o _)
        rw [h.power_some] at hle hgt
        omega

/-- Which places of `l o r` see each other. -/
theorem LeftAssoc.sees_bin (h : P.LeftAssoc) (hwf : P.WellFormed (.bin l o r)) (i j : Nat)
    (a : Option ω) (b : ω) : P.Sees (Tree.bin l o r).ops i j a b ↔
      P.Sees l.ops i j a b ∨ (j = l.ops.length ∧ b = o ∧ P.Last l.ops i a) ∨
      (i = l.ops.length ∧ a = some o ∧ ∃ j', j = l.ops.length + 1 + j' ∧ P.First r.ops j' b) ∨
      ∃ i' j', i = l.ops.length + 1 + i' ∧ j = l.ops.length + 1 + j' ∧ P.Sees r.ops i' j' a b := by
  constructor
  · intro ⟨hij, ha, hb, hbetween⟩
    rw [Tree.ops] at ha hb
    obtain hi | hi | ⟨i', rfl⟩ := ops_cases l.ops i
    · rw [ops_left _ o _ hi] at ha
      -- by the part that each of the two places is in
      obtain hj | hj | ⟨j', rfl⟩ := ops_cases l.ops j
      · rw [ops_left _ o _ hj] at hb
        refine .inl ⟨hij, ha, hb, fun k m hik hkj hm => hbetween k m hik hkj ?_⟩
        rw [Tree.ops, ops_left _ o _ (by omega), hm]
      · rw [hj, ops_middle] at hb
        have hbo : b = o := (Option.some.inj (Option.some.inj hb)).symm
        refine .inr (.inl ⟨hj, hbo, ha, fun k m hik hm => ?_⟩)
        have hk := (List.getElem?_eq_some_iff.mp hm).1
        exact (hbetween k m hik (by omega) ((ops_left _ o _ hk).trans hm)).1
      · -- `o` stands between them, and does not bind more strongly than the earlier one
        have hle := h.le_left hwf (List.mem_of_getElem? ha)
        have hlt := (hbetween l.ops.length (some o) hi (by omega) (ops_middle _ o _)).1
        rw [h.power_some] at hlt
        omega
    · rw [hi, ops_middle] at ha
      have hao : a = some o := (Option.some.inj ha).symm
      obtain hj | hj | ⟨j', rfl⟩ := ops_cases l.ops j
      · omega
      · omega
      · rw [ops_right] at hb
        refine .inr (.inr (.inl ⟨hi, hao, j', rfl, hb, fun k m hk hm => ?_⟩))
        exact (hbetween (l.ops.length + 1 + k) m (by omega) (by omega)
          ((ops_right _ o _ k).trans hm)).2
    · rw [ops_right] at ha
      obtain hj | hj | ⟨j', rfl⟩ := ops_cases l.ops j
      · omega
      · omega
      · rw [ops_right] at hb
        refine .inr (.inr (.inr ⟨i', j', rfl, rfl, by omega, ha, hb, fun k m hik hkj hm => ?_⟩))
        exact hbetween (l.ops.length + 1 + k) m (by omega) (by omega)
          ((ops_right _ o _ k).trans hm)
  · intro hcases
    -- each way back puts the places of a part into the whole
    obtain hl | ⟨rfl, rfl, hi, hlast⟩ | ⟨rfl, rfl, j', rfl, hj, hfirst⟩ | ⟨i', j', rfl, rfl, hr⟩ :=
      hcases
    · obtain ⟨hij, ha, hb, hbetween⟩ := hl
      have hlt := (List.getElem?_eq_some_iff.mp hb).1
      refine ⟨hij, (ops_left _ o _ (by omega)).trans ha, (ops_left _ o _ hlt).trans hb,
        fun k m hik hkj hm => hbetween k m hik hkj ?_⟩
      rwa [Tree.ops, ops_left _ o _ (by omega)] at hm
    · have hlt := (List.getElem?_eq_some_iff.mp hi).1
      refine ⟨hlt, (ops_left _ b _ hlt).trans hi, ops_middle _ b _, fun k m hik hkj hm => ?_⟩
      rw [Tree.ops, ops_left _ b _ hkj] at hm
      exact ⟨hlast k m hik hm, h.le_left hwf (List.mem_of_getElem? hm)⟩
    · refine ⟨by omega, ops_middle _ o _, (ops_right _ o _ j').trans hj, fun k m hik hkj hm => ?_⟩
      obtain ⟨k', rfl⟩ : ∃ k', k = l.ops.length + 1 + k' := ⟨k - (l.ops.length + 1), by omega⟩
      rw [Tree.ops, ops_right] at hm
      rw [h.power_some]
      exact ⟨h.lt_right hwf (List.mem_of_getElem? hm), hfirst k' m (by omega) hm⟩
    · obtain ⟨hij, ha, hb, hbetween⟩ := hr
      refine ⟨by omega, (ops_right _ o _ i').trans ha, (ops_right _ o _ j').trans hb,
        fun k m hik hkj hm => ?_⟩
      obtain ⟨k', rfl⟩ : ∃ k', k = l.ops.length + 1 + k' := ⟨k - (l.ops.length + 1), by omega⟩
      rw [Tree.ops, ops_right] at hm
      exact hbetween k' m (by omega) (by omega) hm

/-- A tree of `P` is one of `Q` exactly if the two tables agree on all operators that see each
other. -/
theorem LeftAssoc.wellFormed_iff (h : P.LeftAssoc) (hwf : P.WellFormed t) :
    Q.WellFormed t ↔ ∀ i j a b, P.Sees t.ops i j a b →
      (P.power a < P.left b ↔ Q.power a < Q.left b) := by
  induction t with
  | leaf x => exact ⟨fun _ i j a b hsees => (nomatch hsees.2.1), fun _ => trivial⟩
  | neg t ih =>
    -- a sign sees no binary operator: only negations are below it
    have hnone (b : ω) : some b ∉ none :: t.ops := fun hb =>
      nomatch (List.forall_mem_cons.mpr ⟨rfl, h.ops_neg hwf⟩ : ∀ m ∈ none :: t.ops, m = none) _ hb
    refine ⟨fun _ i j a b hsees => absurd (List.mem_of_getElem? hsees.2.2.1) (hnone b), fun _ => ?_⟩
    refine ⟨(ih hwf.1).mpr fun i j a b hsees => ?_, fun q hq => ?_⟩
    · exact absurd (List.mem_cons_of_mem _ (List.mem_of_getElem? hsees.2.2.1)) (hnone b)
    · have := hwf.2 q hq
      have := h.pre_lt q
      omega
  | bin l o r ihl ihr =>
    simp only [h.sees_bin hwf]
    constructor
    · intro ⟨hl, hr, hleft, hright⟩ i j a b hcases
      -- the last operator of the left part, the first of the right part, or both in one part
      obtain hsees | ⟨-, rfl, hlast⟩ | ⟨-, rfl, j', -, hfirst⟩ | ⟨i', j', -, -, hsees⟩ := hcases
      · exact (ihl hwf.1).mp hl i j a b hsees
      · have ha := (h.mem_rightEdge_iff hwf.1 a).mpr ⟨i, hlast⟩
        have hP := hwf.2.2.1 a ha
        have hQ := hleft a ha
        omega
      · have hb := (h.mem_leftEdge_iff hwf.2.1 b).mpr ⟨j', hfirst⟩
        exact ⟨fun _ => hright b hb, fun _ => hwf.2.2.2 b hb⟩
      · exact (ihr hwf.2.1).mp hr i' j' a b hsees
    · intro hagree
      refine ⟨(ihl hwf.1).mpr fun i j a b hsees => hagree i j a b (.inl hsees),
        (ihr hwf.2.1).mpr fun i j a b hsees => hagree _ _ a b
          (.inr (.inr (.inr ⟨i, j, rfl, rfl, hsees⟩))), fun p hp => ?_, fun q hq => ?_⟩
      -- each edge is asked about the one pair that sees it and the root
      · obtain ⟨i, hlast⟩ := (h.mem_rightEdge_iff hwf.1 p).mp hp
        have hP := hwf.2.2.1 p hp
        have := hagree i _ p o (.inr (.inl ⟨rfl, rfl, hlast⟩))
        omega
      · obtain ⟨j, hfirst⟩ := (h.mem_leftEdge_iff hwf.2.1 q).mp hq
        exact (hagree _ _ (some o) q (.inr (.inr (.inl ⟨rfl, rfl, j, rfl, hfirst⟩)))).mp
          (hwf.2.2.2 q hq)

end Table

end Athena.Precedence
