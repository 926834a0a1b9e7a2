import Athena.Spec.IfStatements

/-!
# The if chains that the parser makes

After the branch of an `else` the parser goes back to `if_area` and takes another `else`, so
that the events of a file are those of a program (`Toplevel`) exactly if no `else` stands
directly behind the braces of an `else` (`elseAfterElse`).
-/

namespace Athena.Idl

/-! ## An `else` behind an `else`, in the events -/

/-- No if statement goes on after its `else`; `ifs` says of each open one whether it has had
one, the innermost first. -/
def elseOnce : List Bool → List Event → Bool
  | _, [] => true
  | ifs, .onEnterIf :: evs => elseOnce (false :: ifs) evs
  | had :: ifs, .onElseIf :: evs => !had && elseOnce (had :: ifs) evs
  | had :: ifs, .onElse :: evs => !had && elseOnce (true :: ifs) evs
  | _ :: ifs, .onExitIf :: evs => elseOnce ifs evs
  | ifs, _ :: evs => elseOnce ifs evs

mutual

/-- The events of statements leave the open if statements as they were. -/
theorem Stmts.elseOnce (s : Stmts) (ifs : List Bool) (evs : List Event) :
    elseOnce ifs (s.events ++ evs) = elseOnce ifs evs := by
  cases s with
  | done => rfl
  | readWriteVar tinfo varName next =>
    rw [Stmts.events, List.cons_append, Idl.elseOnce]
    · exact next.elseOnce ifs evs
    all_goals nofun
  | value varName exp next =>
    rw [Stmts.events, List.cons_append, Idl.elseOnce]
    · exact next.elseOnce ifs evs
    all_goals nofun
  | ifs cond body rest next =>
    rw [Stmts.events, List.cons_append, List.cons_append, Idl.elseOnce, Idl.elseOnce]
    -- the chain behind the first branch closes the if statement again
    · rw [List.append_assoc, body.elseOnce, List.append_assoc, List.cons_append, rest.elseOnce,
        next.elseOnce]
    all_goals nofun

/-- The branches of a chain end with at most one `else`. -/
theorem Chain.elseOnce (c : Chain) (ifs : List Bool) (evs : List Event) :
    elseOnce (false :: ifs) (c.events ++ .onExitIf :: evs) = elseOnce ifs evs := by
  cases c with
  | done => rfl
  | elseIf cond body rest =>
    rw [Chain.events, List.cons_append, List.cons_append, Idl.elseOnce, Idl.elseOnce]
    · rw [List.append_assoc, body.elseOnce, rest.elseOnce]
      rfl
    all_goals nofun
  | els body =>
    rw [Chain.events, List.cons_append, Idl.elseOnce, body.elseOnce]
    rfl

end

/-- The events of members open no if statement that they do not close. -/
theorem elseOnce_members (ms : List Member) (ifs : List Bool) (evs : List Event) :
    elseOnce ifs (ms.flatMap Member.events ++ evs) = elseOnce ifs evs := by
  induction ms with
  | nil => rfl
  | cons m ms ih =>
    rw [List.flatMap_cons, List.append_assoc]
    cases m with
    | var tinfo varName exp => exact ih
    | read body =>
      rw [Member.events, List.cons_append, elseOnce, List.append_assoc, body.elseOnce]
      · exact ih
      all_goals intros; contradiction
    | write body =>
      rw [Member.events, List.cons_append, elseOnce, List.append_assoc, body.elseOnce]
      · exact ih
      all_goals intros; contradiction

/-- A program has no `else` behind an `else`. -/
theorem elseOnce_program (ts : List Toplevel) : elseOnce [] (ts.flatMap Toplevel.events) = true := by
  induction ts with
  | nil => rfl
  | cons t ts ih =>
    rw [List.flatMap_cons]
    cases t with
    | typedef tinfo name => exact ih
    | struct name members =>
      rw [Toplevel.events, List.cons_append, elseOnce, List.append_assoc, elseOnce_members]
      · exact ih
      all_goals intros; contradiction
    | imported filename => exact ih

/-! ## An `else` behind an `else`, in what the parser reads -/

mutual

/-- No branch stands behind that of an `else`. -/
def Block.elseLast : Block → Bool
  | .done => true
  | .readWriteVar _ _ next => next.elseLast
  | .value _ _ next => next.elseLast
  | .ifs _ body rest next => body.elseLast && (rest.elseLast false && next.elseLast)

/-- `had` says that the branch before these is that of an `else`. -/
def Branches.elseLast (had : Bool) : Branches → Bool
  | .done => true
  | .elseIf _ body rest => !had && (body.elseLast && rest.elseLast false)
  | .els body rest => !had && (body.elseLast && rest.elseLast true)

end

/-- The same for the method of a member. -/
def Item.elseLast : Item → Bool
  | .var _ _ _ => true
  | .read body => body.elseLast
  | .write body => body.elseLast

/-- The same for all methods of a struct. -/
def Decl.elseLast : Decl → Bool
  | .typedef _ _ => true
  | .struct _ _ items => items.all Item.elseLast

section

variable {text : Expr → String}

mutual

/-- The events of a block have an `else` behind an `else` exactly if the block has one. -/
theorem Block.elseOnce_events (b : Block) (ifs : List Bool) (evs : List Event) :
    elseOnce ifs (b.events text ++ evs) = (b.elseLast && elseOnce ifs evs) := by
  cases b with
  | done => rfl
  | readWriteVar tinfo varName next =>
    rw [Block.events, List.cons_append, elseOnce]
    · exact next.elseOnce_events ifs evs
    all_goals nofun
  | value varName exp next =>
    rw [Block.events, List.cons_append, elseOnce]
    · exact next.elseOnce_events ifs evs
    all_goals nofun
  | ifs cond body rest next =>
    rw [Block.events, List.cons_append, List.cons_append, elseOnce, elseOnce]
    -- the body, the chain and what follows the if statement are looked at in turn
    · rw [List.append_assoc, body.elseOnce_events, List.append_assoc, List.cons_append,
        rest.elseOnce_events, next.elseOnce_events, Block.elseLast, Bool.and_assoc, Bool.and_assoc]
    all_goals nofun

/-- So do those of the branches behind one. -/
theorem Branches.elseOnce_events (r : Branches) (had : Bool) (ifs : List Bool)
    (evs : List Event) : elseOnce (had :: ifs) (r.events text ++ .onExitIf :: evs) =
      (r.elseLast had && elseOnce ifs evs) := by
  cases r with
  | done => rfl
  | elseIf cond body rest =>
    rw [Branches.events, List.cons_append, List.cons_append, elseOnce, elseOnce, Branches.elseLast]
    · rw [List.append_assoc, body.elseOnce_events, rest.elseOnce_events]
      cases had <;> simp [Bool.and_assoc]
    all_goals nofun
  | els body rest =>
    rw [Branches.events, List.cons_append, elseOnce, Branches.elseLast, List.append_assoc,
      body.elseOnce_events, rest.elseOnce_events, Bool.and_assoc, Bool.and_assoc]

end

/-- So do those of the members of a struct, -/
theorem elseOnce_items (items : List Item) (ifs : List Bool) (evs : List Event) :
    elseOnce ifs (items.flatMap (Item.events text) ++ evs) =
      (items.all Item.elseLast && elseOnce ifs evs) := by
  induction items with
  | nil => rfl
  | cons item items ih =>
    rw [List.flatMap_cons, List.append_assoc, List.all_cons, Bool.and_assoc]
    cases item with
    | var tinfo varName exp => exact ih
    | read body =>
      rw [Item.events, List.cons_append, elseOnce, List.append_assoc, body.elseOnce_events]
      · exact congrArg _ ih
      all_goals nofun
    | write body =>
      rw [Item.events, List.cons_append, elseOnce, List.append_assoc, body.elseOnce_events]
      · exact congrArg _ ih
      all_goals nofun

/-- and those of a declaration. -/
theorem Decl.elseOnce_events (d : Decl) (evs : List Event) :
    elseOnce [] (d.events text ++ evs) = (d.elseLast && elseOnce [] evs) := by
  cases d with
  | typedef tinfo name => rfl
  | struct place name items =>
    rw [Decl.events, List.cons_append, elseOnce, List.append_assoc, elseOnce_items]
    · rfl
    all_goals nofun

/-! A block whose if statements end with their `else` is a program. -/

mutual

/-- A block without an `else` behind an `else` has the events of statements. -/
theorem Block.exists_stmts (b : Block) (h : b.elseLast = true) :
    ∃ s : Stmts, s.events = b.events text := by
  cases b with
  | done => exact ⟨.done, rfl⟩
  | readWriteVar tinfo varName next =>
    obtain ⟨s, hs⟩ := next.exists_stmts h
    exact ⟨.readWriteVar tinfo varName s, congrArg _ hs⟩
  | value varName exp next =>
    obtain ⟨s, hs⟩ := next.exists_stmts h
    exact ⟨.value varName (text exp) s, congrArg _ hs⟩
  | ifs cond body rest next =>
    rw [Block.elseLast, Bool.and_eq_true, Bool.and_eq_true] at h
    obtain ⟨s, hs⟩ := body.exists_stmts h.1
    obtain ⟨c, hc⟩ := rest.exists_chain h.2.1
    obtain ⟨s', hs'⟩ := next.exists_stmts h.2.2
    exact ⟨.ifs (text cond) s c s', by rw [Stmts.events, Block.events, hs, hc, hs']⟩

/-- Such branches have the events of a chain. -/
theorem Branches.exists_chain (r : Branches) (h : r.elseLast false = true) :
    ∃ c : Chain, c.events = r.events text := by
  cases r with
  | done => exact ⟨.done, rfl⟩
  | elseIf cond body rest =>
    rw [Branches.elseLast, Bool.and_eq_true, Bool.and_eq_true] at h
    obtain ⟨s, hs⟩ := body.exists_stmts h.2.1
    obtain ⟨c, hc⟩ := rest.exists_chain h.2.2
    exact ⟨.elseIf (text cond) s c, by rw [Chain.events, Branches.events, hs, hc]⟩
  | els body rest =>
    rw [Branches.elseLast, Bool.and_eq_true, Bool.and_eq_true] at h
    obtain ⟨s, hs⟩ := body.exists_stmts h.2.1
    -- behind an `else` there is nothing
    cases rest with
    | done => exact ⟨.els s, by rw [Chain.events, Branches.events, hs, Branches.events, List.append_nil]⟩
    | elseIf cond body' rest => exact nomatch h.2.2
    | els body' rest => exact nomatch h.2.2

end

/-- Such members of a struct have the events of members of a program. -/
theorem exists_members (items : List Item) (h : items.all Item.elseLast = true) :
    ∃ ms : List Member, ms.flatMap Member.events = items.flatMap (Item.events text) := by
  induction items with
  | nil => exact ⟨[], rfl⟩
  | cons item items ih =>
    rw [List.all_cons, Bool.and_eq_true] at h
    obtain ⟨ms, hms⟩ := ih h.2
    have hmember : ∃ m : Member, m.events = item.events text := by
      cases item with
      | var tinfo varName exp => exact ⟨.var tinfo varName (exp.elim "" text), rfl⟩
      | read body =>
        obtain ⟨s, hs⟩ := @Block.exists_stmts text body h.1
        exact ⟨.read s, by rw [Member.events, Item.events, hs]⟩
      | write body =>
        obtain ⟨s, hs⟩ := @Block.exists_stmts text body h.1
        exact ⟨.write s, by rw [Member.events, Item.events, hs]⟩
    obtain ⟨m, hm⟩ := hmember
    exact ⟨m :: ms, by rw [List.flatMap_cons, List.flatMap_cons, hm, hms]⟩

/-- Such a declaration has the events of one of a program. -/
theorem Decl.exists_toplevel (d : Decl) (h : d.elseLast = true) :
    ∃ t : Toplevel, t.events = d.events text := by
  cases d with
  | typedef tinfo name => exact ⟨.typedef tinfo name, rfl⟩
  | struct place name items =>
    obtain ⟨ms, hms⟩ := @exists_members text items h
    exact ⟨.struct name ms, by rw [Toplevel.events, Decl.events, hms]⟩

end

/-! ## An `else` behind an `else`, in the tokens -/

/-- What the token before was. -/
inductive Before where
  | other
  | els
  /-- the brace that closes the branch of an `else` -/
  | closedElse
  deriving DecidableEq, Repr

/-- The braces that are open, the innermost first, and whether each stands behind `else`. -/
structure Braces where
  opened : List Bool
  before : Before

namespace Braces

/-- No brace is open at the beginning of a file. -/
def start : Braces := { opened := [], before := .other }

/-- A token opens a brace, closes one, or comes in between. -/
def next (b : Braces) : Tok → Braces
  | .ELSE => { b with before := .els }
  | .sym '{' => { opened := (b.before == .els) :: b.opened, before := .other }
  | .sym '}' =>
    { opened := b.opened.tail
      before := if b.opened.head? = some true then .closedElse else .other }
  | _ => { b with before := .other }

/-- An `else` stands directly behind the braces of an `else`. -/
def elseAfterElse (b : Braces) : List Tok → Bool
  | [] => false
  | tok :: toks => (b.before == .closedElse && tok == .ELSE) || (b.next tok).elseAfterElse toks

/-- The tokens `toks` up to `rest` are neither `else` nor a brace. -/
def Passes (toks rest : List Tok) : Prop :=
  ∀ opened : List Bool, elseAfterElse ⟨opened, .other⟩ toks = elseAfterElse ⟨opened, .other⟩ rest

/-- `toks` begins with such a token. -/
def PassesFrom (toks rest : List Tok) : Prop :=
  ∀ b : Braces, b.elseAfterElse toks = elseAfterElse ⟨b.opened, .other⟩ rest

/-- A token passed is passed behind any other. -/
theorem PassesFrom.passes {toks rest : List Tok} (h : PassesFrom toks rest) : Passes toks rest :=
  fun opened => h ⟨opened, .other⟩

/-- No token is passed. -/
theorem Passes.refl (toks : List Tok) : Passes toks toks := fun _ => rfl

/-- Tokens are passed one piece after another. -/
theorem Passes.trans {toks toks' rest : List Tok} (h : Passes toks toks') (h' : Passes toks' rest) :
    Passes toks rest := fun opened => (h opened).trans (h' opened)

/-- A piece that begins with a token, and another one. -/
theorem PassesFrom.trans {toks toks' rest : List Tok} (h : PassesFrom toks toks')
    (h' : Passes toks' rest) : PassesFrom toks rest := fun b => (h b).trans (h' b.opened)

/-- A token that is neither `else` nor a brace is passed. -/
theorem PassesFrom.cons {tok : Tok} (toks : List Tok) (helse : tok ≠ .ELSE)
    (hopen : tok ≠ .sym '{') (hclose : tok ≠ .sym '}') : PassesFrom (tok :: toks) toks := by
  intro b
  have hnext : b.next tok = ⟨b.opened, .other⟩ := by
    unfold next
    split
    · exact absurd rfl helse
    · exact absurd rfl hopen
    · exact absurd rfl hclose
    · rfl
  rw [elseAfterElse, hnext, beq_eq_false_iff_ne.mpr helse, Bool.and_false, Bool.false_or]

/-- So is any other symbol, -/
theorem PassesFrom.sym {c : Char} (hopen : c ≠ '{') (hclose : c ≠ '}') (toks : List Tok) :
    PassesFrom (.sym c :: toks) toks :=
  .cons toks nofun (fun heq => hopen (Tok.sym.inj heq)) fun heq => hclose (Tok.sym.inj heq)

/-- and a name. -/
theorem PassesFrom.var (name : String) (toks : List Tok) : PassesFrom (.VAR name :: toks) toks :=
  .cons toks nofun nofun nofun

end Braces

namespace Parser

open Braces

variable {gVars : Vars} {toks rest : List Tok}

/-- No operator is an `else` or a brace. -/
theorem passes_of_getOper {tok : Tok} {op : Oper} (toks : List Tok) (h : getOper tok = some op) :
    PassesFrom (tok :: toks) toks := by
  apply PassesFrom.cons
  all_goals
    rintro rfl
    exact nomatch h

/-- No operand is one either. -/
theorem passes_of_operand {tok : Tok} {x : Operand} (toks : List Tok)
    (h : operand gVars tok = some x) : PassesFrom (tok :: toks) toks := by
  apply PassesFrom.cons
  all_goals
    rintro rfl
    exact nomatch h

/-- The rest of an expression is passed. -/
theorem expreRest_passes {ps : List (Oper × Operand)} (h : expreRest gVars toks = some (ps, rest)) :
    Passes toks rest := by
  fun_induction expreRest gVars toks generalizing ps rest with
  | case1 => exact (Prod.mk.inj (Option.some.inj h)).2 ▸ .refl _
  | case2 => exact (Prod.mk.inj (Option.some.inj h)).2 ▸ .refl _
  | case3 => exact nomatch h
  | case4 => exact (Prod.mk.inj (Option.some.inj h)).2 ▸ .refl _
  | case5 tok tok' toks op hop ih =>
    obtain ⟨x, hx, h⟩ := Option.bind_eq_some_iff.mp h
    obtain ⟨⟨ps', rest'⟩, hrest, h⟩ := Option.bind_eq_some_iff.mp h
    obtain ⟨-, rfl⟩ := Prod.mk.inj (Option.some.inj h)
    exact ((passes_of_getOper _ hop).passes.trans (passes_of_operand _ hx).passes).trans (ih hrest)

/-- An expression is passed. -/
theorem expre_passes {e : Expr} (h : expre gVars toks = some (e, rest)) :
    PassesFrom toks rest := by
  unfold expre at h
  split at h
  rename_i neg toks' hneg
  obtain ⟨tok, htok, h⟩ := Option.bind_eq_some_iff.mp h
  obtain ⟨first, hfirst, h⟩ := Option.bind_eq_some_iff.mp h
  obtain ⟨⟨ps, rest'⟩, hrest, h⟩ := Option.bind_eq_some_iff.mp h
  obtain ⟨-, rfl⟩ := Prod.mk.inj (Option.some.inj h)
  obtain ⟨toks'', rfl⟩ : ∃ toks'', toks' = tok :: toks'' := List.head?_eq_some_iff.mp htok
  have hread : PassesFrom (tok :: toks'') rest' :=
    (passes_of_operand _ hfirst).trans (expreRest_passes hrest)
  -- a sign may stand before the first operand
  split at hneg
  · obtain ⟨-, rfl⟩ := Prod.mk.inj hneg
    exact (PassesFrom.sym (by decide) (by decide) _).trans hread.passes
  · obtain ⟨-, rfl⟩ := Prod.mk.inj hneg
    exact hread

/-- A list of members is passed, up to its bracket. -/
theorem rwList_passes {vars : List (TypeInfo × String)} (h : rwList gVars toks = some (vars, rest)) :
    PassesFrom toks rest ∧ ∃ tail, rest = .sym ']' :: tail := by
  fun_induction rwList gVars toks generalizing vars rest with
  | case1 varname toks ih =>
    obtain ⟨tinfo, -, h⟩ := Option.bind_eq_some_iff.mp h
    have hname : PassesFrom (.VAR varname :: toks) toks := .var varname toks
    split at h
    · obtain ⟨-, rfl⟩ := Prod.mk.inj (Option.some.inj h)
      exact ⟨hname, _, rfl⟩
    · obtain ⟨⟨vars', rest'⟩, hrest, h⟩ := Option.bind_eq_some_iff.mp h
      obtain ⟨-, rfl⟩ := Prod.mk.inj (Option.some.inj h)
      obtain ⟨hpasses, htail⟩ := ih hrest
      -- the comma between two names is no brace
      have hcomma := PassesFrom.sym (c := ',') (by decide) (by decide)
      exact ⟨(hname.trans (hcomma _).passes).trans hpasses.passes, htail⟩
    · exact nomatch h
  | case2 => exact nomatch h

/-- `match` takes the token that it is given. -/
theorem matchTok_eq_some {tok : Tok} : matchTok tok toks = some rest ↔ toks = tok :: rest := by
  rw [matchTok]
  cases toks with
  | nil => exact ⟨fun h => (nomatch h), fun h => (nomatch h)⟩
  | cons tok' toks =>
    rw [List.head?_cons, List.tail_cons]
    constructor
    · intro h
      split at h
      next heq => rw [Option.some.inj heq, Option.some.inj h]
      next => exact nomatch h
    · intro h
      obtain ⟨rfl, rfl⟩ := List.cons.inj h
      exact if_pos rfl

/-- A condition is passed. -/
theorem condition_passes {cond : Expr} (h : condition gVars toks = some (cond, rest)) :
    PassesFrom toks rest := by
  obtain ⟨toks', hopen, h⟩ := Option.bind_eq_some_iff.mp h
  obtain ⟨⟨cond', toks''⟩, hexpre, h⟩ := Option.bind_eq_some_iff.mp h
  obtain ⟨toks₃, hclose, h⟩ := Option.bind_eq_some_iff.mp h
  obtain ⟨-, rfl⟩ := Prod.mk.inj (Option.some.inj h)
  obtain rfl := matchTok_eq_some.mp hopen
  obtain rfl := matchTok_eq_some.mp hclose
  have hbefore : PassesFrom (.sym '(' :: toks') toks' := .sym (by decide) (by decide) toks'
  have hbehind : PassesFrom (.sym ')' :: toks₃) toks₃ := .sym (by decide) (by decide) toks₃
  exact (hbefore.trans (expre_passes hexpre).passes).trans hbehind.passes

/-- The name of a type is passed. -/
theorem baseType_passes {st : ParserState} {tok : Tok} {tinfo : TypeInfo} (toks : List Tok)
    (h : baseType st tok = some tinfo) : PassesFrom (tok :: toks) toks := by
  apply PassesFrom.cons
  all_goals
    rintro rfl
    exact nomatch h

/-- A type is passed. -/
theorem dataType_passes {st : ParserState} {tinfo : TypeInfo}
    (h : dataType st toks = some (tinfo, rest)) : PassesFrom toks rest := by
  unfold dataType at h
  split at h
  -- by the two forms of a type: a vector or a name
  · rename_i tok toks
    split at h
    next info hbase =>
      split at h
      · exact nomatch h
      · obtain ⟨-, rfl⟩ := Prod.mk.inj (Option.some.inj h)
        have hvector : PassesFrom (.VECTOR :: .sym '<' :: tok :: .sym '>' :: toks)
            (.sym '<' :: tok :: .sym '>' :: toks) := .cons _ nofun nofun nofun
        have hopen : PassesFrom (.sym '<' :: tok :: .sym '>' :: toks) (tok :: .sym '>' :: toks) :=
          .sym (by decide) (by decide) _
        have hclose : PassesFrom (.sym '>' :: toks) toks := .sym (by decide) (by decide) toks
        exact ((hvector.trans hopen.passes).trans (baseType_passes _ hbase).passes).trans
          hclose.passes
    next => exact nomatch h
  · obtain ⟨info, hbase, heq⟩ := Option.map_eq_some_iff.mp h
    obtain ⟨-, rfl⟩ := Prod.mk.inj heq
    exact baseType_passes _ hbase
  · exact nomatch h

/-- The name of a file is passed. -/
theorem importName_passes (toks : List Tok) : Passes toks (importName toks).2 := by
  fun_induction importName toks with
  | case1 name toks ih =>
    exact ((PassesFrom.var name toks).trans ih).passes
  | case2 toks ih => exact ((PassesFrom.sym (by decide) (by decide) toks).trans ih).passes
  | case3 toks ih => exact ((PassesFrom.sym (by decide) (by decide) toks).trans ih).passes
  | case4 toks => exact .refl toks

/-- The members of a list are no branches. -/
theorem elseLast_foldr (vars : List (TypeInfo × String)) (next : Block) :
    (vars.foldr (fun v next => Block.readWriteVar v.1 v.2 next) next).elseLast = next.elseLast := by
  induction vars with
  | nil => rfl
  | cons v vars ih => exact ih

/-- Behind the branch of an `else`, or behind another one. -/
def behind (had : Bool) : Before := if had then .closedElse else .other

/-- An opened brace remembers whether it stands behind `else`. -/
theorem elseAfterElse_open (b : Braces) (toks : List Tok) : b.elseAfterElse (.sym '{' :: toks) =
    elseAfterElse ⟨(b.before == .els) :: b.opened, .other⟩ toks := by
  rw [elseAfterElse, show (Tok.sym '{' == Tok.ELSE) = false from rfl, Bool.and_false, Bool.false_or]
  rfl

/-- A closed brace shows whether its branch was that of an `else`. -/
theorem elseAfterElse_close (els : Bool) (opened : List Bool) (before : Before) (toks : List Tok) :
    elseAfterElse ⟨els :: opened, before⟩ (.sym '}' :: toks) =
      elseAfterElse ⟨opened, behind els⟩ toks := by
  rw [elseAfterElse, show (Tok.sym '}' == Tok.ELSE) = false from rfl, Bool.and_false, Bool.false_or]
  cases els <;> rfl

/-- An `else` behind the branch of an `else` is found. -/
theorem elseAfterElse_else (had : Bool) (opened : List Bool) (toks : List Tok) :
    elseAfterElse ⟨opened, behind had⟩ (.ELSE :: toks) =
      (had || elseAfterElse ⟨opened, .els⟩ toks) := by
  cases had <;> rfl

/-- The bodies that are read from some fuel: their tokens have an `else` behind an `else` if they
have one themselves. -/
theorem bodies_elseLast (gVars : Vars) (fuel : Nat) :
    (∀ toks body rest, function gVars fuel toks = some (body, rest) → ∀ b : Braces, ∃ before,
      b.elseAfterElse toks = (!body.elseLast || elseAfterElse ⟨b.opened, before⟩ rest)) ∧
    (∀ toks body rest, area gVars fuel toks = some (body, rest) → ∀ b : Braces,
      b.elseAfterElse toks =
        (!body.elseLast || elseAfterElse ⟨b.opened, behind (b.before == .els)⟩ rest)) ∧
    ∀ toks r rest, branches gVars fuel toks = some (r, rest) → ∀ opened had, ∃ before,
      elseAfterElse ⟨opened, behind had⟩ toks =
        (!r.elseLast had || elseAfterElse ⟨opened, before⟩ rest) := by
  induction fuel with
  | zero =>
    refine ⟨?_, ?_, ?_⟩ <;> intro toks b rest h
    · simp [function] at h
    · simp [area] at h
    · simp [branches] at h
  | succ fuel ih =>
    obtain ⟨ihFunction, ihArea, ihBranches⟩ := ih
    refine ⟨?_, ?_, ?_⟩
    -- `__function`: an `else` behind an `else` is in this statement or in the rest
    · intro toks body rest h b
      unfold function at h
      split at h
      · obtain ⟨before, hnext⟩ := ihFunction _ _ _ h ⟨b.opened, .other⟩
        exact ⟨before, (PassesFrom.sym (by decide) (by decide) _ b).trans hnext⟩
      -- a list has no braces
      · rename_i toks
        simp only [Option.bind_eq_bind, Option.bind_eq_some_iff, Option.some.injEq] at h
        obtain ⟨⟨vars, toks'⟩, hvars, ⟨next, rest'⟩, hnext, heq⟩ := h
        obtain ⟨rfl, rfl⟩ := Prod.mk.inj heq
        obtain ⟨hlist, tail, rfl⟩ := rwList_passes hvars
        have hopen : PassesFrom (.sym '[' :: toks) toks := .sym (by decide) (by decide) toks
        have hclose : PassesFrom (.sym ']' :: tail) tail := .sym (by decide) (by decide) tail
        obtain ⟨before, hnext⟩ := ihFunction _ _ _ hnext ⟨b.opened, .other⟩
        refine ⟨before, ?_⟩
        rw [elseLast_foldr, (hopen.trans hlist.passes).trans hclose.passes b]
        exact hnext
      -- neither has an assignment
      · rename_i varname toks
        simp only [Option.bind_eq_bind, Option.bind_eq_some_iff, Option.some.injEq] at h
        obtain ⟨-, -, toks', hassign, ⟨exp, toks''⟩, hexpre, ⟨next, rest'⟩, hnext, heq⟩ := h
        obtain ⟨rfl, rfl⟩ := Prod.mk.inj heq
        obtain rfl := matchTok_eq_some.mp hassign
        have hname : PassesFrom (.VAR varname :: .sym '=' :: toks') (.sym '=' :: toks') :=
          .var varname _
        have hassign : PassesFrom (.sym '=' :: toks') toks' := .sym (by decide) (by decide) toks'
        obtain ⟨before, hnext⟩ := ihFunction _ _ _ hnext ⟨b.opened, .other⟩
        refine ⟨before, ?_⟩
        rw [(hname.trans hassign.passes).trans (expre_passes hexpre).passes b]
        exact hnext
      -- the condition, the branch, what follows it, and the rest
      · rename_i toks
        simp only [Option.bind_eq_bind, Option.bind_eq_some_iff, Option.some.injEq] at h
        obtain ⟨⟨cond, _⟩, hcond, ⟨body, _⟩, hbody, ⟨r, _⟩, hr, ⟨next, _⟩, hnext, heq⟩ := h
        obtain ⟨rfl, rfl⟩ := Prod.mk.inj heq
        have hif : PassesFrom (.IF :: toks) toks := .cons _ nofun nofun nofun
        obtain ⟨before, hr⟩ := ihBranches _ _ _ hr b.opened false
        obtain ⟨before', hnext⟩ := ihFunction _ _ _ hnext ⟨b.opened, before⟩
        refine ⟨before', ?_⟩
        rw [hif.trans (condition_passes hcond).passes b, ihArea _ _ _ hbody]
        show (_ || elseAfterElse ⟨b.opened, behind false⟩ _) = _
        rw [hr, hnext, Block.elseLast, Bool.not_and, Bool.not_and, Bool.or_assoc, Bool.or_assoc]
      · obtain ⟨rfl, rfl⟩ := Prod.mk.inj (Option.some.inj h)
        exact ⟨b.before, rfl⟩
    -- the braces remember whether they are those of an `else`
    · intro toks body rest h b
      simp only [area, Option.bind_eq_bind, Option.bind_eq_some_iff, Option.some.injEq] at h
      obtain ⟨toks', hopen, ⟨body', _⟩, hbody, _, hclose, heq⟩ := h
      obtain ⟨rfl, rfl⟩ := Prod.mk.inj heq
      obtain rfl := matchTok_eq_some.mp hopen
      obtain rfl := matchTok_eq_some.mp hclose
      obtain ⟨before, hfunction⟩ := ihFunction _ _ _ hbody ⟨(b.before == .els) :: b.opened, .other⟩
      rw [elseAfterElse_open, hfunction, elseAfterElse_close]
    · intro toks r rest h opened had
      unfold branches at h
      split at h
      -- `else if` behind an `else` is as wrong as an `else`
      · rename_i toks
        simp only [Option.bind_eq_bind, Option.bind_eq_some_iff, Option.some.injEq] at h
        obtain ⟨⟨cond, _⟩, hcond, ⟨body, _⟩, hbody, ⟨r, _⟩, hr, heq⟩ := h
        obtain ⟨rfl, rfl⟩ := Prod.mk.inj heq
        have hif : PassesFrom (.IF :: toks) toks := .cons _ nofun nofun nofun
        obtain ⟨before, hr⟩ := ihBranches _ _ _ hr opened false
        refine ⟨before, ?_⟩
        rw [elseAfterElse_else, hif.trans (condition_passes hcond).passes, ihArea _ _ _ hbody]
        show (_ || (_ || elseAfterElse ⟨opened, behind false⟩ _)) = _
        rw [hr, Branches.elseLast, Bool.not_and, Bool.not_and, Bool.not_not, Bool.or_assoc,
          Bool.or_assoc]
      · simp only [Option.bind_eq_bind, Option.bind_eq_some_iff, Option.some.injEq] at h
        obtain ⟨⟨body, _⟩, hbody, ⟨r, _⟩, hr, heq⟩ := h
        obtain ⟨rfl, rfl⟩ := Prod.mk.inj heq
        obtain ⟨before, hr⟩ := ihBranches _ _ _ hr opened true
        refine ⟨before, ?_⟩
        rw [elseAfterElse_else, ihArea _ _ _ hbody]
        show (_ || (_ || elseAfterElse ⟨opened, behind true⟩ _)) = _
        rw [hr, Branches.elseLast, Bool.not_and, Bool.not_and, Bool.not_not, Bool.or_assoc,
          Bool.or_assoc]
      · obtain ⟨rfl, rfl⟩ := Prod.mk.inj (Option.some.inj h)
        exact ⟨behind had, rfl⟩

/-- The tokens of a method's body have an `else` behind an `else` exactly if the body has one. -/
theorem area_elseLast {gVars : Vars} {fuel : Nat} {body : Block} {toks' : List Tok}
    (h : area gVars fuel toks = some (body, rest)) (hpasses : PassesFrom toks' toks) (b : Braces) :
    b.elseAfterElse toks' = (!body.elseLast || elseAfterElse ⟨b.opened, .other⟩ rest) := by
  rw [hpasses b, (bodies_elseLast gVars fuel).2.1 _ _ _ h]
  rfl

/-- The members of a struct, up to the brace that closes it. -/
theorem structItems_elseLast {st : ParserState} {fuel : Nat} {gVars : Vars} {items : List Item}
    (h : structItems st fuel gVars toks = some (items, rest)) (els : Bool) (opened : List Bool)
    (before : Before) : elseAfterElse ⟨els :: opened, before⟩ toks =
      (!items.all Item.elseLast || elseAfterElse ⟨opened, behind els⟩ rest) := by
  induction fuel generalizing gVars toks items rest before with
  | zero => exact nomatch h
  | succ fuel ih =>
    -- a variable has no branches, a method has those of its body
    have hmember {toks toks' : List Tok} {item : Item} {items : List Item} {gVars : Vars}
        (hpasses : PassesFrom toks toks') (hitem : item.elseLast = true)
        (hitems : structItems st fuel gVars toks' = some (items, rest)) :
        elseAfterElse ⟨els :: opened, before⟩ toks =
          (!(item :: items).all Item.elseLast || elseAfterElse ⟨opened, behind els⟩ rest) := by
      rw [hpasses, ih hitems, List.all_cons, hitem, Bool.true_and]
    have hbody {tok : Tok} {toks toks' : List Tok} {body : Block} {item : Item} {items : List Item}
        (harea : area gVars fuel toks = some (body, toks'))
        (hpasses : PassesFrom (tok :: toks) toks) (hitem : item.elseLast = body.elseLast)
        (hitems : structItems st fuel gVars toks' = some (items, rest)) :
        elseAfterElse ⟨els :: opened, before⟩ (tok :: toks) =
          (!(item :: items).all Item.elseLast || elseAfterElse ⟨opened, behind els⟩ rest) := by
      rw [area_elseLast harea hpasses, ih hitems, List.all_cons, Bool.not_and, Bool.or_assoc, hitem]
    unfold structItems at h
    split at h
    · rw [PassesFrom.sym (by decide) (by decide)]
      exact ih h .other
    · obtain ⟨rfl, rfl⟩ := Prod.mk.inj (Option.some.inj h)
      exact elseAfterElse_close els opened before _
    · simp only [Option.bind_eq_bind, Option.bind_eq_some_iff, Option.some.injEq] at h
      obtain ⟨⟨body, toks'⟩, harea, ⟨items', rest'⟩, hitems, heq⟩ := h
      obtain ⟨rfl, rfl⟩ := Prod.mk.inj heq
      exact hbody harea (.cons _ nofun nofun nofun) rfl hitems
    · simp only [Option.bind_eq_bind, Option.bind_eq_some_iff, Option.some.injEq] at h
      obtain ⟨⟨body, toks'⟩, harea, ⟨items', rest'⟩, hitems, heq⟩ := h
      obtain ⟨rfl, rfl⟩ := Prod.mk.inj heq
      exact hbody harea (.cons _ nofun nofun nofun) rfl hitems
    · obtain ⟨⟨tinfo, toks'⟩, htype, h⟩ := Option.bind_eq_some_iff.mp h
      have htype := dataType_passes htype
      dsimp only at h
      split at h
      · simp only [Option.bind_eq_bind, Option.bind_eq_some_iff, Option.some.injEq] at h
        obtain ⟨⟨exp, toks'⟩, hexpre, ⟨items', rest'⟩, hitems, heq⟩ := h
        obtain ⟨rfl, rfl⟩ := Prod.mk.inj heq
        have hassign := PassesFrom.sym (c := '=') (by decide) (by decide)
        exact hmember (((htype.trans (PassesFrom.var _ _).passes).trans (hassign _).passes).trans
          (expre_passes hexpre).passes) rfl hitems
      · simp only [Option.bind_eq_bind, Option.bind_eq_some_iff, Option.some.injEq] at h
        obtain ⟨⟨items', rest'⟩, hitems, heq⟩ := h
        obtain ⟨rfl, rfl⟩ := Prod.mk.inj heq
        exact hmember (htype.trans (PassesFrom.var _ _).passes) rfl hitems
      · exact nomatch h

/-- So do the tokens of a struct. -/
theorem struct_elseLast {file : String} {st st' : ParserState} {fuel : Nat}
    (h : struct file st fuel toks = some (st', rest)) (before : Before) :
    ∃ d, st'.decls.head? = some d ∧ elseAfterElse ⟨[], before⟩ toks =
      (!d.elseLast || elseAfterElse ⟨[], .other⟩ rest) := by
  unfold struct at h
  split at h
  · rename_i name body
    simp only [Option.bind_eq_bind, Option.bind_eq_some_iff, Option.some.injEq] at h
    obtain ⟨⟨items, rest'⟩, hitems, heq⟩ := h
    obtain ⟨rfl, rfl⟩ := Prod.mk.inj heq
    refine ⟨_, rfl, ?_⟩
    have hname : PassesFrom (.VAR name :: .sym '{' :: body) (.sym '{' :: body) := .var name _
    rw [hname, elseAfterElse_open]
    exact structItems_elseLast hitems _ [] .other
  · exact nomatch h

/-- A typedef has no `else`. -/
theorem typedef_elseLast {st st' : ParserState} (h : typedef st toks = some (st', rest)) :
    ∃ d, st'.decls.head? = some d ∧ d.elseLast = true ∧ PassesFrom toks rest := by
  obtain ⟨⟨tinfo, toks'⟩, htype, h⟩ := Option.bind_eq_some_iff.mp h
  have htype := dataType_passes htype
  dsimp only at h
  split at h
  · obtain ⟨rfl, rfl⟩ := Prod.mk.inj (Option.some.inj h)
    exact ⟨_, rfl, rfl, htype.trans (PassesFrom.var _ _).passes⟩
  · exact nomatch h

/-- What `events` puts first for a declaration. -/
theorem head_events {text : Expr → String} {st : ParserState} {d : Decl}
    (h : st.decls.head? = some d) (evs : List Event) :
    st.decls.head?.elim [] (Decl.events text) ++ evs = d.events text ++ evs := by
  rw [h]
  rfl

/-- The events of a file go on behind an `else` exactly if its tokens do. -/
theorem events_elseOnce {text : Expr → String} {files : String → Option (List Tok)} {fuel : Nat}
    {file : String} {st : ParserState} {evs : List Event}
    (h : events text files fuel file st toks = some evs) :
    elseOnce [] evs = !Braces.start.elseAfterElse toks := by
  induction fuel generalizing file st toks evs with
  | zero => exact nomatch h
  | succ fuel ih =>
    unfold events at h
    split at h
    -- the end of the file, a semicolon, then the three declarations
    · exact Option.some.inj h ▸ rfl
    · rw [Braces.start, PassesFrom.sym (by decide) (by decide)]
      exact ih h
    · rename_i toks
      simp only [Option.bind_eq_bind, Option.bind_eq_some_iff, Option.some.injEq] at h
      obtain ⟨⟨st', toks'⟩, htypedef, rest, hrest, rfl⟩ := h
      obtain ⟨d, hd, hlast, hpasses⟩ := typedef_elseLast htypedef
      have htok : PassesFrom (.TYPEDEF :: toks) toks := .cons toks nofun nofun nofun
      rw [head_events hd, d.elseOnce_events, hlast, Bool.true_and, ih hrest, Braces.start,
        htok.trans hpasses.passes]
    · rename_i toks
      simp only [Option.bind_eq_bind, Option.bind_eq_some_iff, Option.some.injEq] at h
      obtain ⟨⟨st', toks'⟩, hstruct, rest, hrest, rfl⟩ := h
      obtain ⟨d, hd, hlast⟩ := struct_elseLast hstruct .other
      have htok : PassesFrom (.STRUCT :: toks) toks := .cons toks nofun nofun nofun
      rw [head_events hd, d.elseOnce_events, ih hrest, Braces.start, htok, hlast, Bool.not_or,
        Bool.not_not]
    · rename_i toks
      simp only [Option.bind_eq_bind, Option.bind_eq_some_iff, Option.some.injEq] at h
      obtain ⟨imported, -, st', -, rest, hrest, rfl⟩ := h
      have htok : PassesFrom (.IMPORT :: toks) toks := .cons toks nofun nofun nofun
      have honce := ih hrest
      rw [Braces.start, htok.trans (importName_passes toks)]
      exact honce
    · exact nomatch h

/-- Events that do not are those of a program. -/
theorem events_program {text : Expr → String} {files : String → Option (List Tok)} {fuel : Nat}
    {file : String} {st : ParserState} {evs : List Event}
    (h : events text files fuel file st toks = some evs) (honce : elseOnce [] evs = true) :
    ∃ program : List Toplevel, evs = program.flatMap Toplevel.events := by
  induction fuel generalizing file st toks evs with
  | zero => exact nomatch h
  | succ fuel ih =>
    -- a declaration is one more top level item
    have hdecl {d : Decl} {st : ParserState} {toks : List Tok} {rest : List Event}
        (hrest : events text files fuel file st toks = some rest)
        (honce : elseOnce [] (d.events text ++ rest) = true) :
        ∃ program : List Toplevel, d.events text ++ rest = program.flatMap Toplevel.events := by
      rw [d.elseOnce_events, Bool.and_eq_true] at honce
      obtain ⟨t, ht⟩ := @Decl.exists_toplevel text d honce.1
      obtain ⟨program, rfl⟩ := ih hrest honce.2
      exact ⟨t :: program, by rw [List.flatMap_cons, ht]⟩
    unfold events at h
    split at h
    · exact ⟨[], (Option.some.inj h).symm⟩
    · exact ih h honce
    · simp only [Option.bind_eq_bind, Option.bind_eq_some_iff, Option.some.injEq] at h
      obtain ⟨⟨st', toks'⟩, htypedef, rest, hrest, rfl⟩ := h
      obtain ⟨d, hd, -⟩ := typedef_elseLast htypedef
      rw [head_events hd] at honce ⊢
      exact hdecl hrest honce
    · simp only [Option.bind_eq_bind, Option.bind_eq_some_iff, Option.some.injEq] at h
      obtain ⟨⟨st', toks'⟩, hstruct, rest, hrest, rfl⟩ := h
      obtain ⟨d, hd, -⟩ := struct_elseLast hstruct .other
      rw [head_events hd] at honce ⊢
      exact hdecl hrest honce
    · simp only [Option.bind_eq_bind, Option.bind_eq_some_iff, Option.some.injEq] at h
      obtain ⟨imported, -, st', -, rest, hrest, rfl⟩ := h
      obtain ⟨program, rfl⟩ := ih hrest honce
      exact ⟨.imported _ :: program, rfl⟩
    · exact nomatch h

end Parser

/-! ## Accepted files -/

/-- The events are those of a program, and the generators write its texts. -/
def IfsWellFormed (name : String) (evs : List Event) : Prop :=
  ∃ program : List Toplevel, evs = program.flatMap Toplevel.events ∧
    ((Generate.init name).run evs).cpp =
      (Generate.init name).cpp ++ .join (program.map Toplevel.cxxText) ∧
    (GenerateLua.init.run evs).file = .join (program.map Toplevel.luaText)

/-- The if statements of an accepted file are well formed exactly if no `else` stands directly
behind the braces of an `else`. -/
theorem ifsWellFormed_iff (text : Expr → String) (files : String → Option (List Tok))
    (file name : String) (toks : List Tok) (evs : List Event) (htoks : files file = some toks)
    (hsends : Parser.Sends text files file evs) :
    IfsWellFormed name evs ↔ Braces.start.elseAfterElse toks = false := by
  obtain ⟨fuel, toks', htoks', hevents⟩ := hsends
  obtain rfl := Option.some.inj (htoks.symm.trans htoks')
  have honce := Parser.events_elseOnce hevents
  constructor
  · intro ⟨program, hprogram, _, _⟩
    rw [hprogram, elseOnce_program] at honce
    exact Bool.not_eq_eq_eq_not.mp honce.symm
  · intro helse
    rw [helse] at honce
    obtain ⟨program, rfl⟩ := Parser.events_program hevents honce
    have hlua := run_lua_all program GenerateLua.init rfl rfl
    rw [show GenerateLua.init.file = "" from rfl, String.empty_append] at hlua
    exact ⟨program, rfl, run_cxx_all program (Generate.init name) rfl, hlua⟩

/-- `if (a) {} else {}` in a `read`. -/
theorem ifsWellFormed_else : IfsWellFormed "s" [.onEnterStruct "s",
    .onVariable ⟨false, .base .INT32, "int32", ""⟩ "a" "", .onEnterRead, .onEnterIf,
    .onIfCond "a", .onElse, .onExitIf, .onExitRead, .onExitStruct] :=
  (ifsWellFormed_iff Expr.cppText (fun _ => some [.STRUCT, .VAR "s", .sym '{', .BASE .INT32,
    .VAR "a", .READ, .sym '{', .IF, .sym '(', .VAR "a", .sym ')', .sym '{', .sym '}', .ELSE,
    .sym '{', .sym '}', .sym '}', .sym '}']) "s.idl" "s" _ _ rfl ⟨12, _, rfl, rfl⟩).mpr rfl

/-- `if (a) {} else {} else {}`. -/
theorem second_else : ¬ ∀ (text : Expr → String) (files : String → Option (List Tok))
    (file name : String) (evs : List Event),
    Parser.Sends text files file evs → IfsWellFormed name evs := by
  intro h
  have hsends : Parser.Sends Expr.cppText (fun _ => some [.STRUCT, .VAR "s", .sym '{',
      .BASE .INT32, .VAR "a", .READ, .sym '{', .IF, .sym '(', .VAR "a", .sym ')', .sym '{',
      .sym '}', .ELSE, .sym '{', .sym '}', .ELSE, .sym '{', .sym '}', .sym '}', .sym '}']) "s.idl"
      [.onEnterStruct "s", .onVariable ⟨false, .base .INT32, "int32", ""⟩ "a" "", .onEnterRead,
        .onEnterIf, .onIfCond "a", .onElse, .onElse, .onExitIf, .onExitRead, .onExitStruct] :=
    ⟨12, _, rfl, rfl⟩
  obtain ⟨program, hprogram, -, -⟩ := h _ _ _ "s" _ hsends
  have honce := elseOnce_program program
  rw [← hprogram] at honce
  exact nomatch honce

end Athena.Idl
