/-!
# Native procedures

The procedures that are not written in the language itself. A native is an operation together with
the name it was registered under; the name is what it is shown and compared by, so two natives
registered under one name are equal whatever they do.

Besides the built-in operations there are a few *host* operations, which a program has only if its
host registers them: they show a procedure's view of the place it is called from.
-/

namespace MiniLisp

/-- The built-in operations. -/
inductive Builtin where
  | add | sub | mul | div | expt
  | numEq | less | lessEq | greater | greaterEq
  | same | identical | not
  | cons | car | cdr | cadr | list
  | concat | string | typeName | apply
  | isNull | isPair | isNumber | isBoolean | isSymbol | isString | isProcedure
deriving DecidableEq, Inhabited

/-- The name of a built-in operation in the global scope. -/
def Builtin.name : Builtin → String
  | add => "+" | sub => "-" | mul => "*" | div => "/" | expt => "expt"
  | numEq => "=" | less => "<" | lessEq => "<=" | greater => ">" | greaterEq => ">="
  | same => "==" | identical => "eq?" | not => "not"
  | cons => "cons" | car => "car" | cdr => "cdr" | cadr => "cadr" | list => "list"
  | concat => "concat" | string => "string" | typeName => "type" | apply => "apply"
  | isNull => "null?" | isPair => "pair?" | isNumber => "number?" | isBoolean => "boolean?"
  | isSymbol => "symbol?" | isString => "string?" | isProcedure => "procedure?"

/-- All built-in operations. -/
def Builtin.all : List Builtin := [
  .add, .sub, .mul, .div, .expt, .numEq, .less, .lessEq, .greater, .greaterEq, .same, .identical,
  .not, .cons, .car, .cdr, .cadr, .list, .concat, .string, .typeName, .apply, .isNull, .isPair,
  .isNumber, .isBoolean, .isSymbol, .isString, .isProcedure]

/-- The operations that only a host registers. -/
inductive HostOperation where
  /-- The name of the scope the call is made in. -/
  | scopeName
  /-- The scope of the call, its dynamic scope, and both ends of the call's span. -/
  | callSite
  /-- Hands the call over to its first argument. -/
  | tail
  /-- Evaluates its first argument where the call is made. -/
  | eval
  /-- The names visible where the call is made that are not global. -/
  | names
deriving DecidableEq

/-- What a native procedure does. -/
inductive NativeOperation where
  | builtin (operation : Builtin)
  | host (operation : HostOperation)
deriving DecidableEq

/-- A native procedure. -/
structure Native where
  /-- The name it was registered under. -/
  name : String
  operation : NativeOperation
deriving DecidableEq

/-- A built-in operation under its own name. -/
def Builtin.native (b : Builtin) : Native := ⟨b.name, .builtin b⟩

end MiniLisp
