import Athena.Spec.ParserSteps

/-!
# When the IDL parser halts

A parser gets on: it reads its file, and between two tokens it has less and less to do.  What
keeps it from the end is an error branch of a release build that stays at its token, a comment
that does not end, and an import of a file that is being parsed already with the same tables.
-/

namespace Athena.Idl.ParserRun

open Token Calls Relation StateTransition

/-! ## States that get on -/

/-- The error at this place leaves the parser where it is. -/
def Instr.Stuck (cur : Option Tok) : Instr → Prop
  | start => cur ≠ none ∧ cur ≠ some (.sym ';') ∧ cur ≠ some .TYPEDEF ∧ cur ≠ some .STRUCT ∧
      cur ≠ some .IMPORT
  | items => cur = none
  | rwList => (∀ name, cur ≠ some (.VAR name)) ∧ cur ≠ some (.sym ']') ∧ cur ≠ some (.sym ',')
  | _ => False

/-- The scanner comes to the next token, or to an assert that stops the program. -/
def Scans (build : Build) (src : List Char) : Prop :=
  symbol src ≠ .error .outside ∧ (build = .release → symbol src ≠ .error .assertion)

/-- The parser on top gets on. -/
def Config.Proceeds (build : Build) (files : List (String × List Char)) : Config → Prop
  | .run (c :: cs) tables =>
    match c.now.code with
    | [] => True
    | instr :: _ =>
      match instr.loads c.now.cur with
      | some name =>
        (build = .release → (files.lookup (Parser.getFileDir c.now.file ++ name)).isSome) ∧
          ∀ d ∈ c :: cs, d.entry.file = Parser.getFileDir c.now.file ++ name → d.since ≠ tables
      | none =>
        (build = .release → ¬ instr.Stuck c.now.cur) ∧
          ((instr.move tables c.now.gVars c.now.cur).next →
            (build = .debug → (instr.move tables c.now.gVars c.now.cur).error = false) →
            Scans build c.now.src)
  | _ => True

/-- `Parser::start` has returned, or the program has reported an error and stopped. -/
def Config.Reported : Config → Prop
  | .run calls _ => calls = []
  | .stopped r => r ≠ .undefined

/-! ## Between two tokens -/

/-- How much there is to do at a place before the next token. -/
def Instr.weight (build : Build) (cur : Option Tok) : Instr → Nat
  | begin => 2
  | start => 1
  | importName _ => 1
  | dataType _ => if cur = none ∧ build = .release then 4 else 1
  | elemType _ => 5
  | afterType _ _ => 3
  | struct => 4
  | items => if cur = none ∧ build = .release then 1 else 2
  | init => 1
  | expre => 3
  | operand => 2
  | oper => 1
  | function => 1
  | afterIf => 1
  | afterElse => 5
  | rwList => if cur = some (.sym ']') ∨ cur = some (.sym ',') then 2 else 1
  | afterVar => if cur = some (.sym ']') ∨ cur = some (.sym ',') then 1 else 2
  | next => 1
  | matching _ => 1

/-- How much there is to do before the next token. -/
def weight (build : Build) (cur : Option Tok) (code : List Instr) : Nat :=
  (code.map (Instr.weight build cur)).sum

/-- The work of two lists of places. -/
theorem weight_append (build : Build) (cur : Option Tok) (code code' : List Instr) :
    weight build cur (code ++ code') = weight build cur code + weight build cur code' := by
  rw [weight, List.map_append, List.sum_append, ← weight, ← weight]

/-- The work of a place and of those behind it. -/
theorem weight_cons (build : Build) (cur : Option Tok) (instr : Instr) (code : List Instr) :
    weight build cur (instr :: code) = instr.weight build cur + weight build cur code := by
  rw [weight, List.map_cons, List.sum_cons, ← weight]

/-- Where the token stays the same, a move leaves less to do. -/
theorem weight_move {build : Build} {tables : Tables} {gVars : List String} {cur : Option Tok}
    {instr : Instr} (hsame : cur = none ∨ (instr.move tables gVars cur).next = false)
    (hloads : instr.loads cur = none)
    (herror : build = .debug → (instr.move tables gVars cur).error = false)
    (hstuck : build = .release → ¬ instr.Stuck cur) :
    weight build cur (instr.move tables gVars cur).code < instr.weight build cur := by
  revert hsame herror
  -- a move to the next token is one at the end of the file, by `hsame`
  fun_cases Instr.move tables gVars cur instr
  all_goals
    intro hsame herror
    cases build
  all_goals
    simp_all [weight, Instr.weight, Instr.ifArea, Instr.Stuck, Instr.loads, Instr.fileChar,
      Tables.baseType]
  · show (if cur = none then 1 else 2) < 3
    split <;> omega
  · -- a list that is not stuck stands at its `]` or at a comma
    have hend : cur = some (.sym ']') ∨ cur = some (.sym ',') := by
      by_cases hbracket : cur = some (.sym ']')
      · exact .inl hbracket
      · exact .inr (hstuck hbracket)
    rw [if_pos hend, if_pos hend]
    omega

/-! ## The measure -/

/-- What is left of the file, and what there is to do before the next token. -/
def Parsing.measure (build : Build) (p : Parsing) : Nat × Nat :=
  (2 * p.src.length + p.cur.toList.length, weight build p.cur p.code)

/-- A parser gets on. -/
def Less (build : Build) : Parsing → Parsing → Prop :=
  InvImage (Prod.Lex (· < ·) (· < ·)) (Parsing.measure build)

/-- A parser cannot get on for ever. -/
theorem wellFounded_less (build : Build) : WellFounded (Less build) :=
  InvImage.wf _ (WellFounded.prod_lex Nat.lt_wfRel.wf Nat.lt_wfRel.wf)

/-- Less to do at the same place of the file. -/
theorem less_of_weight {build : Build} {p p' : Parsing} (hcur : p'.cur = p.cur)
    (hsrc : p'.src = p.src) (h : weight build p.cur p'.code < weight build p.cur p.code) :
    Less build p' p := by
  rw [Less, InvImage, Parsing.measure, Parsing.measure, hcur, hsrc]
  exact .right _ h

/-- A place is left for places with less to do. -/
theorem weight_cons_lt {build : Build} {cur : Option Tok} {instr : Instr} {code rest : List Instr}
    (h : weight build cur code < instr.weight build cur) :
    weight build cur (code ++ rest) < weight build cur (instr :: rest) := by
  rw [weight_append, weight_cons]
  omega

/-- The call of `nextToken` takes the parser on. -/
theorem nextToken_less {build : Build} {p p' q : Parsing} {tables tables' : Tables}
    {stay : Act Parsing Tables Stop} (hscans : Scans build p.src)
    (hsrc : p'.src = p.src)
    (hcode : p.cur = none → weight build p.cur p'.code < weight build p.cur p.code)
    (h : nextToken build p' tables stay = .go q tables') : Less build q p := by
  revert h
  fun_cases nextToken build p' tables stay with
  | case1 =>
    rename_i hnone
    intro h
    obtain ⟨rfl, -⟩ := Act.go.inj h
    -- no source is left: the place, or the token that is dropped, decides
    cases htok : p.cur with
    | none => exact less_of_weight htok.symm hsrc (hcode htok)
    | some tok =>
      rw [Less, InvImage, Parsing.measure, Parsing.measure, hsrc, htok]
      exact .left _ _ (Nat.lt_succ_self _)
  | case2 =>
    rename_i tok src hsome
    intro h
    obtain ⟨rfl, -⟩ := Act.go.inj h
    -- a token was scanned, so the source is shorter
    refine .left _ _ ?_
    have hlength := length_symbol hsome
    rw [hsrc] at hlength
    show 2 * src.length + 1 < 2 * p.src.length + p.cur.toList.length
    omega
  | case3 => intro h; cases h
  -- the release build would stay in an open comment, and there is none
  | case4 =>
    rename_i hcomment
    exact absurd (hsrc ▸ hcomment) (hscans.2 rfl)
  | case5 => intro h; cases h

/-- A debug build that goes on has reported no error. -/
theorem no_error {build : Build} {error : Bool} (h : ¬ (error = true ∧ build = .debug)) :
    build = .debug → error = false :=
  fun hbuild => Bool.eq_false_iff.mpr fun herror => h ⟨herror, hbuild⟩

variable {build : Build} {files : List (String × List Char)} {c : Open Parsing Tables}
  {cs : List (Open Parsing Tables)} {tables : Tables}

/-- A parser that goes on gets on. -/
theorem less_of_go (h : Config.Proceeds build files (.run (c :: cs) tables)) {p : Parsing}
    {tables' : Tables} (hact : act build files tables c.now = .go p tables') :
    Less build p c.now := by
  revert hact
  rw [Config.Proceeds] at h
  fun_cases act build files tables c.now with
  -- with the next token, or without one
  | case6 =>
    rename_i instr code hcode hloads m p' hnext herror
    intro hact
    simp only [hcode, hloads] at h
    obtain ⟨hstuck, hscans⟩ := h
    have hsrc : p'.src = c.now.src := rfl
    refine nextToken_less (hscans hnext (no_error herror)) hsrc (fun hcur => ?_) hact
    rw [hcode]
    exact weight_cons_lt (weight_move (.inl hcur) hloads (no_error herror) hstuck)
  | case7 =>
    rename_i instr code hcode hloads m p' hnext herror
    intro hact
    simp only [hcode, hloads] at h
    obtain ⟨rfl, -⟩ := Act.go.inj hact
    refine less_of_weight rfl rfl ?_
    rw [hcode]
    exact weight_cons_lt
      (weight_move (.inr (Bool.eq_false_iff.mpr hnext)) hloads (no_error herror) h.1)
  | _ => intro hact; cases hact

/-- A parser that imports gets on, and the new one is not open already. -/
theorem less_of_call (h : Config.Proceeds build files (.run (c :: cs) tables)) {q p : Parsing}
    {tables' : Tables} (hact : act build files tables c.now = .call q p tables') :
    Less build p c.now ∧ (q, tables') ∉ (c :: cs).map Open.key := by
  revert hact
  rw [Config.Proceeds] at h
  fun_cases act build files tables c.now with
  | case2 =>
    rename_i instr code hcode name hloads filename text hlookup
    intro hact
    simp only [hcode, hloads] at h
    obtain ⟨rfl, rfl, rfl⟩ := Act.call.inj hact
    refine ⟨less_of_weight rfl rfl ?_, fun hmem => ?_⟩
    · cases instr with
      | importName filename' =>
        rw [hcode, weight_cons]
        exact Nat.lt_add_of_pos_left Nat.one_pos
      | _ => cases hloads
    · obtain ⟨d, hd, hkey⟩ := List.mem_map.mp hmem
      obtain ⟨hentry, hsince⟩ := Prod.mk.inj hkey
      exact h.2 d hd (by rw [hentry]; rfl) hsince
  | case6 =>
    rename_i instr code hcode hloads m p' hnext herror
    fun_cases nextToken build p' m.tables (.go c.now tables) <;> intro hact <;>
      cases hact
  | _ => intro hact; cases hact

/-- Where every parser proceeds, the calls get on. -/
theorem getsOn_of_proceeds {m : Config} (h : m.Proceeds build files) :
    Calls.Config.GetsOn (act build files) (Less build) m := by
  cases m with
  | stopped r => trivial
  | run calls tables =>
    cases calls with
    | nil => trivial
    | cons c cs =>
      rw [Config.GetsOn]
      split
      · trivial
      · next p tables' hact => exact less_of_go h hact
      · next q p tables' hact => exact less_of_call h hact
      · trivial

/-- The program does not stop on memory that is not its own. -/
theorem stop_ne_undefined (h : Config.Proceeds build files (.run (c :: cs) tables)) {r : Stop}
    (hact : act build files tables c.now = .stop r) : r ≠ .undefined := by
  revert hact
  rw [Config.Proceeds] at h
  fun_cases act build files tables c.now with
  | case4 =>
    -- a file that is not there, then the scanner's own errors
    rename_i instr code hcode name hloads filename hlookup
    simp only [hcode, hloads] at h
    have hsome : (files.lookup filename).isSome := by simpa using h.1
    rw [hlookup] at hsome
    cases hsome
  | case6 =>
    rename_i instr code hcode hloads m p' hnext herror
    simp only [hcode, hloads] at h
    have hscans : Scans build p'.src := h.2 hnext (no_error herror)
    fun_cases nextToken build p' m.tables (.go c.now tables) with
    | case3 =>
      intro hact
      rw [← Act.stop.inj hact]
      decide
    | case5 =>
      rename_i hsymbol
      exact absurd hsymbol hscans.1
    | _ => intro hact; cases hact
  | _ =>
    intro hact
    cases hact <;> decide

/-- Where every state gets on, the end of the run is reported. -/
theorem reported_of_proceeds {file : String} {text : List Char} {m : Config}
    (h : ∀ m, Reaches (step build files) (initial file text) m → m.Proceeds build files)
    (hreach : Reaches (step build files) (initial file text) m) (hend : step build files m = none) :
    m.Reported := by
  cases m with
  | run calls tables => exact eq_nil_of_step hend
  | stopped r =>
    obtain heq | ⟨m', hreach', hstep⟩ := hreach.cases_tail
    · exact nomatch heq
    · obtain ⟨c, cs, tables, rfl, hact⟩ := stop_of_step hstep
      exact stop_ne_undefined (h _ hreach') hact

/-- If every parser proceeds, the whole of it comes to an end. -/
theorem halts_of_proceeds {file : String} {text : List Char} (hfile : files.lookup file = some text)
    (h : ∀ m, Reaches (step build files) (initial file text) m → m.Proceeds build files) :
    ∃ m ∈ eval (step build files) (initial file text), m.Reported := by
  have hkeys : ∀ calls tables, Reaches (step build files) (initial file text) (.run calls tables) →
      ∀ c ∈ calls, c.key ∈ Openings files ×ˢ TablesOf files := by
    intro calls tables hreach c hc
    obtain ⟨hentry, hsince, -⟩ := (reaches_inv hfile hreach).2 c hc
    exact ⟨hentry, hsince⟩
  obtain ⟨m, hm⟩ := exists_mem_eval (fun m hreach => getsOn_of_proceeds (h m hreach))
    (finite_openings.prod finite_tablesOf) (wellFounded_less build) rfl hkeys
  obtain ⟨hreach, hend⟩ := mem_eval.mp hm
  exact ⟨m, hm, reported_of_proceeds h hreach hend⟩

/-! ## What keeps the parser from its end -/

/-- The end of an import statement. -/
theorem act_loads {p : Parsing} {instr : Instr} {code : List Instr} {name : String}
    (hcode : p.code = instr :: code) (hloads : instr.loads p.cur = some name) :
    act build files tables p =
      match files.lookup (Parser.getFileDir p.file ++ name) with
      | some text =>
        .call (.opened (Parser.getFileDir p.file ++ name) text) { p with code } tables
      | none =>
        match build with
        | .debug => .stop .loadError
        | .release => .stop .undefined := by
  rw [act.eq_def, hcode]
  dsimp only
  cases hname : instr.loads p.cur with
  | none => cases hname.symm.trans hloads
  | some name' =>
    obtain rfl := Option.some.inj (hname.symm.trans hloads)
    rfl

/-- A move that is not an error that stops the program. -/
theorem act_eq {p : Parsing} {instr : Instr} {code : List Instr} (hcode : p.code = instr :: code)
    (hloads : instr.loads p.cur = none)
    (herror : build = .debug → (instr.move tables p.gVars p.cur).error = false) :
    act build files tables p =
      let m := instr.move tables p.gVars p.cur
      let p' := { p with code := m.code ++ code, gVars := m.gVars }
      if m.next then nextToken build p' m.tables (.go p tables) else .go p' m.tables := by
  rw [act.eq_def, hcode]
  dsimp only
  rw [hloads]
  refine if_neg fun h => ?_
  rw [herror h.2] at h
  exact Bool.false_ne_true h.1

/-- A release build goes on after an error. -/
theorem act_release {p : Parsing} {instr : Instr} {code : List Instr}
    (hcode : p.code = instr :: code) (hloads : instr.loads p.cur = none) :
    act .release files tables p =
      let m := instr.move tables p.gVars p.cur
      let p' := { p with code := m.code ++ code, gVars := m.gVars }
      if m.next then nextToken .release p' m.tables (.go p tables) else .go p' m.tables :=
  act_eq hcode hloads nofun

/-- At a token that begins no declaration `start` stays. -/
theorem move_start {cur : Option Tok} (gVars : List String) (h : Instr.start.Stuck cur) :
    Instr.start.move tables gVars cur = { error := true, code := [.start], tables, gVars } := by
  obtain ⟨hnone, hsemicolon, htypedef, hstruct, himport⟩ := h
  rw [Instr.move] <;> assumption

/-- At a token that is no variable a list goes on to its comma. -/
theorem move_rwList {cur : Option Tok} (gVars : List String) (h : Instr.rwList.Stuck cur) :
    Instr.rwList.move tables gVars cur = { error := true, code := [.afterVar], tables, gVars } := by
  rw [Instr.move]
  exact h.1

/-- And from there back to its variable. -/
theorem move_afterVar {cur : Option Tok} (gVars : List String) (h : Instr.rwList.Stuck cur) :
    Instr.afterVar.move tables gVars cur = { error := true, code := [.rwList], tables, gVars } := by
  rw [Instr.move]
  · exact h.2.1
  · exact h.2.2

/-- A parser that is stuck comes back to where it was. -/
theorem loop_of_stuck {p : Parsing} (hp : p.Inv files) {instr : Instr} {code : List Instr}
    (hcode : p.code = instr :: code) (hstuck : instr.Stuck p.cur) (hnow : c.now = p) :
    Reaches₁ (step .release files) (.run (c :: cs) tables) (.run (c :: cs) tables) := by
  obtain ⟨entry, since, now⟩ := c
  subst hnow
  obtain ⟨file, cur, src, code', gVars⟩ := now
  obtain rfl : code' = instr :: code := hcode
  -- the parser at another place with the same token
  let at_ (instr : Instr) : Parsing := { file, cur, src, code := instr :: code, gVars }
  have hgo {instr instr' : Instr}
      (h : act .release files tables (at_ instr) = .go (at_ instr') tables) :
      Reaches₁ (step .release files) (.run ({ entry, since, now := at_ instr } :: cs) tables)
        (.run ({ entry, since, now := at_ instr' } :: cs) tables) :=
    .single (step_go (c := { entry, since, now := at_ instr }) h cs)
  cases instr with
  | start =>
    have hstart : act .release files tables (at_ .start) = .go (at_ .start) tables := by
      rw [act_release rfl rfl]
      dsimp only [at_]
      rw [move_start gVars hstuck]
      rfl
    exact hgo hstart
  | items =>
    obtain rfl : cur = none := hstuck
    have hsymbol : symbol src = .ok none := hp.symbol_eq rfl (by decide) rfl
    have htype : act .release files tables (at_ (.dataType .member)) =
        .go (at_ (.afterType .member false)) tables := by
      rw [act_release rfl rfl]
      dsimp only [at_, Instr.move, Tables.baseType]
      rw [if_pos rfl, nextToken, hsymbol]
      rfl
    have hitems : act .release files tables (at_ .items) = .go (at_ (.dataType .member)) tables := by
      rw [act_release rfl rfl]
      rfl
    have hafter : act .release files tables (at_ (.afterType .member false)) =
        .go (at_ .items) tables := by
      rw [act_release rfl rfl]
      rfl
    exact ((hgo hitems).trans (hgo htype)).trans (hgo hafter)
  | rwList =>
    have hlist : act .release files tables (at_ .rwList) = .go (at_ .afterVar) tables := by
      rw [act_release rfl rfl]
      dsimp only [at_]
      rw [move_rwList gVars hstuck]
      rfl
    have hafter : act .release files tables (at_ .afterVar) = .go (at_ .rwList) tables := by
      rw [act_release rfl rfl]
      dsimp only [at_]
      rw [move_afterVar gVars hstuck]
      rfl
    exact (hgo hlist).trans (hgo hafter)
  | _ => exact hstuck.elim

/-- A run that goes outside the memory of the program is not reported. -/
theorem not_reported_of_undefined {m₀ : Config}
    (hreach : Reaches (step build files) m₀ (.run (c :: cs) tables))
    (hact : act build files tables c.now = .stop .undefined) :
    ¬ ∃ m ∈ eval (step build files) m₀, m.Reported := by
  intro ⟨m, hm, hreported⟩
  have hend : Config.stopped .undefined ∈ eval (step build files) m₀ :=
    mem_eval.mpr ⟨hreach.tail (step_stop hact cs), rfl⟩
  rw [Part.mem_unique hm hend] at hreported
  exact hreported rfl

/-- If the whole of it comes to an end, every parser has proceeded. -/
theorem proceeds_of_halts {file : String} {text : List Char} (hfile : files.lookup file = some text)
    (h : ∃ m ∈ eval (step build files) (initial file text), m.Reported) {m : Config}
    (hreach : Reaches (step build files) (initial file text) m) : m.Proceeds build files := by
  have hinv := reaches_inv hfile hreach
  cases m with
  | stopped r => trivial
  | run calls tables =>
    cases calls with
    | nil => trivial
    | cons c cs =>
      rw [Config.Proceeds]
      cases hcode : c.now.code with
      | nil => trivial
      | cons instr code =>
        dsimp only
        cases hloads : instr.loads c.now.cur with
        | some name =>
          have hact := @act_loads build files tables c.now _ _ name hcode hloads
          refine ⟨fun hbuild => ?_, fun d hd hentry hsince => ?_⟩
          · cases hlookup : files.lookup (Parser.getFileDir c.now.file ++ name) with
            | some text' => rfl
            | none =>
              rw [hlookup] at hact
              subst hbuild
              exact absurd h (not_reported_of_undefined hreach hact)
          · -- the file was opened before, with the text that it has
            obtain ⟨⟨file', text', hlookup, hopened⟩, -⟩ := hinv.2 d hd
            obtain rfl : file' = Parser.getFileDir c.now.file ++ name := by
              rw [← hentry, hopened]
              rfl
            rw [hlookup] at hact
            have hopen : (Parsing.opened (Parser.getFileDir c.now.file ++ name) text', tables) ∈
                (c :: cs).map Open.key :=
              List.mem_map.mpr ⟨d, hd, Prod.ext hopened hsince⟩
            obtain ⟨last, hlast, -⟩ := h
            exact not_mem_eval_of_recall hreach hact hopen last hlast
        | none =>
          refine ⟨fun hbuild hstuck => ?_, fun hnext herror => ⟨fun houtside => ?_, ?_⟩⟩
          · subst hbuild
            obtain ⟨last, hlast, -⟩ := h
            have hp : c.now.Inv files := (hinv.2 c List.mem_cons_self).2.2
            exact not_mem_eval_of_loop hreach (loop_of_stuck hp hcode hstuck rfl) hlast
          · have hact := @act_eq build files tables c.now _ _ hcode hloads herror
            dsimp only at hact
            rw [if_pos hnext, nextToken.eq_def, houtside] at hact
            exact absurd h (not_reported_of_undefined hreach hact)
          · intro hbuild hcomment
            subst hbuild
            have hact := @act_release files tables c.now _ _ hcode hloads
            dsimp only at hact
            rw [if_pos hnext, nextToken, hcomment] at hact
            obtain ⟨last, hlast, -⟩ := h
            exact not_mem_eval_of_loop hreach (.single (step_go hact cs)) hlast

/-- The parser returns or stops with a report if and only if it gets on all the time. -/
theorem parser_halts_iff (build : Build) (files : List (String × List Char)) (file : String)
    (text : List Char) (hfile : files.lookup file = some text) :
    (∃ m ∈ eval (step build files) (initial file text), m.Reported) ↔
      ∀ m, Reaches (step build files) (initial file text) m → m.Proceeds build files :=
  ⟨fun h _ hreach => proceeds_of_halts hfile h hreach, halts_of_proceeds hfile⟩

/-- A file that imports another one and uses its struct. -/
theorem parser_halts_iff_import :
    (∃ m ∈ eval (step .release [("pos", "struct Pos { int32 x; }".toList),
          ("role", "import pos struct Role { Pos at; }".toList)])
        (initial "role" "import pos struct Role { Pos at; }".toList), m.Reported) ↔
      ∀ m, Reaches (step .release [("pos", "struct Pos { int32 x; }".toList),
          ("role", "import pos struct Role { Pos at; }".toList)])
        (initial "role" "import pos struct Role { Pos at; }".toList) m →
          m.Proceeds .release [("pos", "struct Pos { int32 x; }".toList),
            ("role", "import pos struct Role { Pos at; }".toList)] :=
  parser_halts_iff .release [("pos", "struct Pos { int32 x; }".toList),
    ("role", "import pos struct Role { Pos at; }".toList)] "role"
    "import pos struct Role { Pos at; }".toList rfl

/-- A file that imports itself, in a debug build. -/
theorem self_import :
    ¬ ∀ (build : Build) (files : List (String × List Char)) (file : String) (text : List Char),
      files.lookup file = some text →
      ∃ m ∈ eval (step build files) (initial file text), m.Reported := by
  intro h
  obtain ⟨m, hm, -⟩ := h .debug [("a", "import a".toList)] "a" "import a".toList rfl
  let files := [("a", "import a".toList)]
  let at_ (cur : Option Tok) (src : List Char) (instr : Instr) (code : List Instr) : Parsing :=
    { file := "a", cur, src, code := instr :: code, gVars := [] }
  have hbegin : act .debug files .init (at_ none "import a".toList .begin []) =
      .go (at_ (some .IMPORT) [' ', 'a'] .start []) .init := by
    have hsymbol : symbol "import a".toList = .ok (some (.IMPORT, [' ', 'a'])) := by decide +kernel
    rw [act_eq rfl rfl (fun _ => rfl)]
    dsimp only [at_, Instr.move]
    rw [if_pos rfl, nextToken.eq_def, hsymbol]
    rfl
  have hstart : act .debug files .init (at_ (some .IMPORT) [' ', 'a'] .start []) =
      .go (at_ (some (.VAR "a")) [] (.importName "") [.start]) .init := by
    have hsymbol : symbol [' ', 'a'] = .ok (some (.VAR "a", [])) := by decide +kernel
    rw [act_eq rfl rfl (fun _ => rfl)]
    dsimp only [at_, Instr.move]
    rw [if_pos rfl, nextToken.eq_def, hsymbol]
    rfl
  have hname : act .debug files .init (at_ (some (.VAR "a")) [] (.importName "") [.start]) =
      .go (at_ none [] (.importName "a") [.start]) .init := by
    have hsymbol : symbol [] = .ok none := by decide +kernel
    rw [act_eq rfl rfl (fun _ => rfl)]
    dsimp only [at_, Instr.move, Instr.fileChar]
    rw [if_pos rfl, nextToken.eq_def, hsymbol]
    rfl
  have hload : act .debug files .init (at_ none [] (.importName "a") [.start]) =
      .call (.opened "a" "import a".toList) (at_ none [] .start []) .init := by
    have hpath : Parser.getFileDir "a" ++ "a" = "a" := by decide +kernel
    rw [act_loads rfl rfl]
    dsimp only [at_]
    rw [hpath]
    rfl
  let run (p : Parsing) : Config :=
    .run [{ enter (.opened "a" "import a".toList) .init with now := p }] .init
  have hgo {p p' : Parsing} (hact : act .debug files .init p = .go p' .init) :
      Reaches (step .debug files) (run p) (run p') :=
    .single (step_go (c := { enter (.opened "a" "import a".toList) .init with now := p }) hact [])
  have hreach : Reaches (step .debug files) (initial "a" "import a".toList)
      (run (at_ none [] (.importName "a") [.start])) :=
    ((hgo hbegin).trans (hgo hstart)).trans (hgo hname)
  -- the parser of the file opens the file again, and nothing has been declared
  exact not_mem_eval_of_recall hreach hload List.mem_cons_self m hm

end Athena.Idl.ParserRun
