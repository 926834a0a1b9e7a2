import Athena.Native.IdlParser

/-!
# The text of an expression (`Parser::expre`, `ParserLua`)

`expre` appends operands and operators to one text, without parentheses.  `Parser` writes it
for C++; `ParserLua` has other operators and writes a member with its object.
-/

namespace Athena.Idl

/-- `getName` of the token. -/
def Operand.name : Operand → String
  | var name _ => name
  | num text => text
  | decimals text => text

namespace Parser

/-- `Parser::getExpreVar`. -/
def getExpreVar (x : Operand) : String := x.name

/-- `Parser::getOperStr`. -/
def getOperStr : Oper → String
  | .Add => "+"
  | .Sub => "-"
  | .Mul => "*"
  | .Mod => "%"
  | .Pow => "^"
  | .Div => "/"
  | .Band => "&"
  | .Bor => "|"
  | .LT => "<"
  | .GT => ">"
  | .EQ => "=="
  | .NE => "!="
  | .AND => "&&"
  | .OR => "||"
  | .LE => "<="
  | .GE => ">="
  | .SHL => "<<"
  | .SHR => ">>"

end Parser

namespace ParserLua

/-- `ParserLua::getExpreVar`. -/
def getExpreVar : Operand → String
  | .var name true => "self." ++ name
  | x => Parser.getExpreVar x

/-- `ParserLua::getOperStr`. -/
def getOperStr : Oper → String
  | .NE => "~="
  | .AND => " and "
  | .OR => " or "
  | op => Parser.getOperStr op

end ParserLua

/-- What the loop of `expre` appends after an operand. -/
def restText (getOperStr : Oper → String) (getExpreVar : Operand → String) :
    List (Oper × Operand) → String
  | [] => ""
  | (op, x) :: rest => getOperStr op ++ (getExpreVar x ++ restText getOperStr getExpreVar rest)

/-- The text of an expression. -/
def Expr.text (getOperStr : Oper → String) (getExpreVar : Operand → String) (e : Expr) : String :=
  (if e.neg then "-" else "") ++ (getExpreVar e.first ++ restText getOperStr getExpreVar e.rest)

/-- What `Parser` passes on. -/
def Expr.cppText : Expr → String := Expr.text Parser.getOperStr Parser.getExpreVar

/-- What `ParserLua` passes on. -/
def Expr.luaText : Expr → String := Expr.text ParserLua.getOperStr ParserLua.getExpreVar

end Athena.Idl
