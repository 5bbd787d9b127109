import Recompile.Script.Arithmetic
import Recompile.Script.Shell

/-!
# Conditions

`test` says whether a condition on texts, integers or files holds. Conditions are joined by `-a` and `-o`, and
an argument counts as an operator only where one makes sense.
-/

namespace Recompile

namespace Script

namespace Condition

def unaryOperators : List String :=
  ["-r", "-w", "-x", "-e", "-f", "-d", "-c", "-b", "-p", "-u", "-g", "-k", "-s", "-t", "-z", "-n", "-h", "-L", "-O",
    "-G", "-S"]

/-- The operators with two operands. -/
def binaryOperators : List String :=
  ["=", "!=", "<", ">", "-eq", "-ne", "-ge", "-gt", "-le", "-lt", "-nt", "-ot", "-ef"]

/-- The roles that an argument may have. -/
inductive Role
  | operand
  | unary
  | binary
  | not
  | and
  | or
  | opening
  | closing
  | ended
deriving DecidableEq, Repr

/-- The role of the first of some arguments. An operator with one operand is none if nothing follows it, or a
whole comparison in which it is the first operand. -/
def role : List String → Role
  | [] => .ended
  | a :: rest =>
    if unaryOperators.contains a then
      match rest with
      | [] => .operand
      | [_] => .unary
      | b :: _ :: _ => if binaryOperators.contains b then .operand else .unary
    else if binaryOperators.contains a then .binary
    else if a = "!" then .not
    else if a = "-a" then .and
    else if a = "-o" then .or
    else if a = "(" then (if rest.isEmpty then .operand else .opening)
    else if a = ")" then .closing
    else .operand

def integer (s : String) : Except String Int :=
  match s.toList.dropWhile Arithmetic.isBlank with
  | [] => .error ("Illegal number: " ++ s)
  | cs =>
    let (negative, ds) := match cs with
      | '-' :: ds => (true, ds)
      | '+' :: ds => (false, ds)
      | ds => (false, ds)
    let (ds, rest) := ds.span Char.isDigit
    let n : Int := if negative then -(Arithmetic.natOf 10 ds : Int) else Arithmetic.natOf 10 ds
    if ds.isEmpty ∨ !rest.all Arithmetic.isBlank ∨ Arithmetic.wrap n ≠ n then .error ("Illegal number: " ++ s)
    else .ok n

def file (s : Shell) (operator p : String) : Bool :=
  let node := nodeAt? s p
  let isNull := p == nullPath
  match operator with
  | "-e" | "-r" | "-w" | "-O" | "-G" => node.isSome || isNull
  | "-f" => node.any Node.isFile
  | "-d" => node.any Node.isDir
  | "-c" => isNull
  | "-x" =>
    match node with
    | some (.file _ executable) => executable
    | some .dir => true
    | _ => false
  | "-s" =>
    match node with
    | some (.file data _) => !data.isEmpty
    | some .dir => true
    | _ => false
  | "-h" | "-L" =>
    match s.host.files.place s.cwd false (Shell.path p) with
    | .ok ⟨_, some (.link _)⟩ => true
    | _ => false
  | _ => false

/-- Whether two paths lead to one file. -/
def sameFile (s : Shell) (p q : String) : Bool :=
  match s.host.files.place s.cwd true (Shell.path p), s.host.files.place s.cwd true (Shell.path q) with
  | .ok a, .ok b => a.node.isSome && a.loc == b.loc
  | _, _ => false

def compare (s : Shell) (a operator b : String) : Except String Bool := do
  match operator with
  | "=" => return a == b
  | "!=" => return a != b
  | "<" => return decide (a < b)
  | ">" => return decide (b < a)
  | "-ef" => return sameFile s a b
  | "-nt" | "-ot" => return false
  | _ => do
    let m ← integer a
    let n ← integer b
    return match operator with
      | "-eq" => m == n
      | "-ne" => m != n
      | "-ge" => decide (n ≤ m)
      | "-gt" => decide (n < m)
      | "-le" => decide (m ≤ n)
      | _ => decide (m < n)

def missingOperand (operator : String) : String := operator ++ ": argument expected"

mutual

/-- Evaluates conditions joined by `-o`, and returns what follows them. -/
def anyOf (s : Shell) : (fuel : Nat) → List String → Except String (Bool × List String)
  | 0, args => .ok (false, args)
  | fuel + 1, args => do
    let (holds, rest) ← allOf s fuel args
    if role rest = .or then
      let (others, rest) ← anyOf s fuel rest.tail
      return (holds || others, rest)
    else return (holds, rest)

/-- Evaluates conditions joined by `-a`, and returns what follows them. -/
def allOf (s : Shell) : (fuel : Nat) → List String → Except String (Bool × List String)
  | 0, args => .ok (false, args)
  | fuel + 1, args => do
    let (holds, rest) ← single s fuel args
    if role rest = .and then
      let (others, rest) ← allOf s fuel rest.tail
      return (holds && others, rest)
    else return (holds, rest)

/-- Evaluates one condition, and returns what follows it. -/
def single (s : Shell) : (fuel : Nat) → List String → Except String (Bool × List String)
  | 0, args => .ok (false, args)
  | fuel + 1, args => do
    match role args, args with
    | .not, _ :: rest => do
      if rest.isEmpty then return (true, [])
      let (holds, rest) ← single s fuel rest
      return (!holds, rest)
    | .opening, _ :: rest => do
      if role rest = .closing then return (false, rest.tail)
      let (holds, rest) ← anyOf s fuel rest
      if role rest = .closing then return (holds, rest.tail) else throw "closing paren expected"
    | .unary, operator :: rest =>
      match rest with
      | [] => throw (missingOperand operator)
      | a :: rest =>
        return (if operator = "-z" then a == "" else if operator = "-n" then a != "" else file s operator a, rest)
    | _, a :: rest =>
      if role rest = .binary then
        match rest with
        | operator :: b :: rest => do return (← compare s a operator b, rest)
        | operator :: _ => throw (missingOperand operator)
        | [] => return (a != "", rest)
      else return (a != "", rest)
    | _, [] => return (false, [])

end

/-- Evaluates a condition to its end. -/
def whole (s : Shell) (args : List String) : Except String Bool := do
  let (holds, rest) ← anyOf s (3 * args.length + 3) args
  if rest.isEmpty then return holds
  else
    let last := args[args.length - rest.length - 1]?.getD ""
    throw ((if last = "" then "" else last ++ ": ") ++ "unexpected operator")

/-- **Whether a condition holds,** or what is wrong with it. Short conditions are read by their length. -/
def evaluate (s : Shell) : (fuel : Nat) → List String → Except String Bool
  | 0, _ => .ok false
  | _ + 1, [] => .ok false
  | fuel + 1, args => do
    match args with
    | [a, operator, b] =>
      if binaryOperators.contains operator then compare s a operator b
      else if operator = "-a" ∨ operator = "-o" then whole s args
      else if a = "(" ∧ b = ")" then whole s [operator]
      else if a = "!" then return !(← evaluate s fuel [operator, b])
      else whole s args
    | [a, b, c, d] =>
      if a = "(" ∧ d = ")" then whole s [b, c]
      else if a = "!" then return !(← evaluate s fuel [b, c, d])
      else whole s args
    | _ => whole s args

end Condition

end Script

end Recompile
