import QueryScope.Host.Type
/-!
# Host programs

The analysed program, as a set of entities numbered from 0 in creation order within each
kind: files, classes (with their annotations, fields and methods), methods and constructors
(with their parameters and body statements), fields, variables, statements and expressions.

An expression is a literal, a reference (to a local variable, a field or a type used as a
static receiver), a call, a parenthesised expression, an object creation, a class literal
or an array initializer. Each expression records its static type when one was given, its
parent, its owner (a method, or a class for field initializers and annotation arguments) and
its position in the source.

Expressions are created after their sub-expressions, so a sub-expression always has a
smaller id than the expression containing it: walking down to children, or up to parents,
moves strictly in one direction and ends. The navigation below relies on that order only as
the measure of its recursion.
-/

namespace QueryScope

/-- A literal of the host program. -/
inductive Literal where
  | null
  | boolean (b : Bool)
  | int (n : Int)
  | long (n : Int)
  | double (x : Float)
  | char (c : Char)
  | string (s : String)

/-- The static type of a literal; `null` has none. -/
def Literal.staticType : Literal → Option HostType
  | .null => none
  | .boolean _ => some (.named "boolean")
  | .int _ => some (.named "int")
  | .long _ => some (.named "long")
  | .double _ => some (.named "double")
  | .char _ => some (.named "char")
  | .string _ => some .string

/-- What a reference expression names. -/
inductive Reference where
  /-- A local variable or parameter. -/
  | localVar (var : Nat)
  /-- A field. -/
  | field (field : Nat)
  /-- A type used as a static receiver. -/
  | typeName (name : String)

/-- A method call. -/
structure Call where
  receiver : Option Nat
  name : String
  /-- The qualified name of the class declaring the called method, when known. -/
  declaringType : Option String
  /-- The called method, when it is part of the program. -/
  target : Option Nat
  args : List Nat

/-- Whether a call is declared by a type. -/
def Call.isDeclaredBy (c : Call) (t : String) : Bool := c.declaringType == some t

/-- Whether a call is the method of a given name declared by a type. -/
def Call.is (c : Call) (t name : String) : Bool := c.name == name && c.isDeclaredBy t

/-- The shape of an expression. -/
inductive ExprKind where
  | literal (l : Literal)
  | reference (r : Reference)
  | call (c : Call)
  | paren (inner : Nat)
  /-- An object creation, with its constructor when it is part of the program. -/
  | new (type : HostType) (ctor : Option Nat) (args : List Nat)
  | classLiteral (type : HostType)
  | arrayInit (items : List Nat)

/-- Where an expression is written: in a method, or in a class body. -/
inductive Owner where
  | method (m : Nat)
  | inClass (c : Nat)
deriving DecidableEq

/-- An expression with what is recorded about it. -/
structure Expr where
  kind : ExprKind
  type? : Option HostType := none
  parent : Option Nat := none
  owner : Option Owner := none
  offset : Nat := 0

instance : Inhabited Expr := ⟨{ kind := .literal .null }⟩

/-- What an assignment assigns to. -/
inductive AssignTarget where
  | field (f : Nat)
  | localVar (v : Nat)
deriving DecidableEq

/-- A statement of a method body. -/
inductive StmtKind where
  | ret (value : Option Nat)
  | declare (var : Nat)
  | expr (e : Nat)
  | assign (target : AssignTarget) (value : Nat)

/-- A statement and its method. -/
structure Stmt where
  kind : StmtKind
  method : Nat

/-- The kind of a class declaration. -/
inductive ClassKind where
  | plain
  | iface
  | enumeration
deriving DecidableEq

/-- An annotation with its named arguments. -/
structure Annotation where
  name : String
  args : List (String × Nat)

/-- The argument of an annotation under a key. -/
def Annotation.arg? (a : Annotation) (key : String) : Option Nat := a.args.lookup key

/-- A class, interface or enum. -/
structure Class where
  name : String
  kind : ClassKind
  file : Nat
  superclass : Option String := none
  annotations : List Annotation := []
  fields : List Nat := []
  methods : List Nat := []

instance : Inhabited Class := ⟨{ name := "", kind := .plain, file := 0 }⟩

/-- The last segment of a class's name. -/
def Class.simpleName (c : Class) : String := QueryScope.simpleName c.name

/-- The annotation of a class with a given name. -/
def Class.annotation? (c : Class) (name : String) : Option Annotation :=
  c.annotations.find? (·.name == name)

/-- A method or constructor. -/
structure Method where
  name : String
  cls : Nat
  params : List Nat := []
  returnType : Option HostType := none
  isConstructor : Bool := false
  isVarargs : Bool := false
  body : List Nat := []

instance : Inhabited Method := ⟨{ name := "", cls := 0 }⟩

/-- A field or enum constant. -/
structure Field where
  name : String
  cls : Nat
  type : HostType
  isFinal : Bool := false
  isEnumConstant : Bool := false
  initializer : Option Nat := none

instance : Inhabited Field := ⟨{ name := "", cls := 0, type := .object }⟩

/-- A local variable, or the parameter at an index. -/
inductive VarKind where
  | localVar
  | parameter (index : Nat)

/-- A local variable or parameter. -/
structure Variable where
  name : String
  type : HostType
  method : Nat
  kind : VarKind
  initializer : Option Nat := none

instance : Inhabited Variable := ⟨{ name := "", type := .object, method := 0, kind := .localVar }⟩

/-- A host program. -/
structure Program where
  files : Array String := #[]
  classes : Array Class := #[]
  methods : Array Method := #[]
  fields : Array Field := #[]
  vars : Array Variable := #[]
  stmts : Array Stmt := #[]
  exprs : Array Expr := #[]

namespace Program

/-! ### Entities by id -/

/-- The expression of an id, if the program has it. -/
def expr? (p : Program) (id : Nat) : Option Expr := p.exprs[id]?

/-- The expression of an id. -/
def expr (p : Program) (id : Nat) : Expr := p.exprs[id]?.getD default

/-- Whether the program has an expression of this id. -/
def hasExpr (p : Program) (id : Nat) : Bool := id < p.exprs.size

/-- The class of an id. -/
def cls (p : Program) (id : Nat) : Class := p.classes[id]?.getD default

/-- The method of an id. -/
def method (p : Program) (id : Nat) : Method := p.methods[id]?.getD default

/-- The field of an id. -/
def field (p : Program) (id : Nat) : Field := p.fields[id]?.getD default

/-- The variable of an id. -/
def var (p : Program) (id : Nat) : Variable := p.vars[id]?.getD default

/-- The ids of all expressions. -/
def exprIds (p : Program) : List Nat := List.range p.exprs.size

/-- The call an expression is. -/
def call? (p : Program) (id : Nat) : Option Call :=
  match (p.expr id).kind with
  | .call c => some c
  | _ => none

/-- The first class of a name. -/
def classByName? (p : Program) (name : String) : Option Nat :=
  (List.range p.classes.size).find? fun i => (p.cls i).name == name

/-- Replace a literal in place; other expressions are left alone and give `false`. -/
def replaceLiteral (p : Program) (id : Nat) (l : Literal) : Program × Bool :=
  match p.exprs[id]? with
  | some e =>
    match e.kind with
    | .literal _ => ({ p with exprs := p.exprs.set! id { e with kind := .literal l } }, true)
    | _ => (p, false)
  | none => (p, false)

/-! ### Classes -/

/-- The superclass of a class, if the program declares it. -/
def superclass? (p : Program) (c : Nat) : Option Nat :=
  (p.cls c).superclass.bind p.classByName?

/-- Climb superclasses from a class, stopping at a repeat; `fuel` bounds the steps. -/
def climb (p : Program) : Nat → Nat → List Nat → List Nat
  | 0, _, chain => chain
  | fuel + 1, c, chain =>
    match p.superclass? c with
    | some s => if chain.contains s then chain else climb p fuel s (chain ++ [s])
    | none => chain

/-- A class followed by its ancestors declared in the program. -/
def hierarchy (p : Program) (c : Nat) : List Nat := climb p p.classes.size c [c]

/-- Whether one class is an ancestor of, or equal to, the other. -/
def inSameHierarchy (p : Program) (a b : Nat) : Bool :=
  (p.hierarchy a).contains b || (p.hierarchy b).contains a

/-- The constructors of a class. -/
def constructors (p : Program) (c : Nat) : List Nat :=
  (p.cls c).methods.filter fun m => (p.method m).isConstructor

/-- The constructors of a class and of its ancestors, nearest first. -/
def constructorsWithInherited (p : Program) (c : Nat) : List Nat :=
  (p.hierarchy c).flatMap p.constructors

/-- The names of an enum's constants. -/
def enumConstants (p : Program) (c : Nat) : List String :=
  ((p.cls c).fields.map p.field).filter (·.isEnumConstant) |>.map (·.name)

/-! ### Expressions -/

/-- The parent of an expression. -/
def parent? (p : Program) (id : Nat) : Option Nat := (p.expr id).parent

/-- The expression without its enclosing parentheses. -/
def stripParens (p : Program) (id : Nat) : Nat :=
  match (p.expr id).kind with
  | .paren inner => if inner < id then p.stripParens inner else id
  | _ => id
termination_by id

/-- The outermost expression containing an expression. -/
def root (p : Program) (id : Nat) : Nat :=
  match p.parent? id with
  | some q => if id < q ∧ q < p.exprs.size then p.root q else id
  | none => id
termination_by p.exprs.size - id

/-- The direct sub-expressions, in source order. -/
def children (p : Program) (id : Nat) : List Nat :=
  match (p.expr id).kind with
  | .call c => c.receiver.toList ++ c.args
  | .paren inner => [inner]
  | .new _ _ args => args
  | .arrayInit items => items
  | _ => []

/-- An expression and every expression below it, in pre-order. -/
def descendants (p : Program) (id : Nat) : List Nat :=
  id :: (p.children id).attach.flatMap fun ⟨c, _⟩ => if c < id then p.descendants c else []
termination_by id

/-- The method an expression is written in. -/
def enclosingMethod? (p : Program) (id : Nat) : Option Nat :=
  match (p.expr id).owner with
  | some (.method m) => some m
  | _ => none

/-- The class an expression is written in. -/
def enclosingClass? (p : Program) (id : Nat) : Option Nat :=
  match (p.expr id).owner with
  | some (.method m) => some (p.method m).cls
  | some (.inClass c) => some c
  | none => none

/-- The file an expression is written in. -/
def fileOf? (p : Program) (id : Nat) : Option Nat := (p.enclosingClass? id).map (p.cls · |>.file)

/-- The static type of an expression: the recorded one, or the one its declarations give. -/
def staticType? (p : Program) (id : Nat) : Option HostType :=
  let e := p.expr id
  match e.type? with
  | some t => some t
  | none =>
    match e.kind with
    | .literal l => l.staticType
    | .reference (.localVar v) => some (p.var v).type
    | .reference (.field f) => some (p.field f).type
    | .reference (.typeName _) => none
    | .call c => c.target.bind fun m => (p.method m).returnType
    | .paren inner => if inner < id then p.staticType? inner else none
    | .new t _ _ => some t
    | .classLiteral _ => some (.named "java.lang.Class")
    | .arrayInit items =>
      match items with
      | first :: _ =>
        if first < id then
          match p.staticType? first with
          | some t => some t.arrayOf
          | none => some HostType.object.arrayOf
        else some HostType.object.arrayOf
      | [] => some HostType.object.arrayOf
termination_by id

/-- The arguments of a call or object creation. -/
def arguments (p : Program) (id : Nat) : List Nat :=
  match (p.expr id).kind with
  | .call c => c.args
  | .new _ _ args => args
  | _ => []

/-! ### Statements and cross references -/

/-- The statement of an id. -/
def stmt? (p : Program) (id : Nat) : Option Stmt := p.stmts[id]?

/-- The expressions directly held by the statements of a method body. -/
def statementRoots (p : Program) (m : Nat) : List Nat :=
  (p.method m).body.filterMap fun s =>
    match p.stmt? s with
    | some ⟨.ret v, _⟩ => v
    | some ⟨.declare v, _⟩ => (p.var v).initializer
    | some ⟨.expr e, _⟩ => some e
    | some ⟨.assign _ v, _⟩ => some v
    | none => none

/-- Every expression of a method body. -/
def exprsIn (p : Program) (m : Nat) : List Nat := (p.statementRoots m).flatMap p.descendants

/-- The values of a method's `return` statements. -/
def returnsOf (p : Program) (m : Nat) : List Nat :=
  (p.method m).body.filterMap fun s =>
    match p.stmt? s with
    | some ⟨.ret v, _⟩ => v
    | _ => none

/-- The calls and object creations that invoke a method, in id order. -/
def callSitesOf (p : Program) (m : Nat) : List Nat :=
  p.exprIds.filter fun id =>
    match (p.expr id).kind with
    | .call c => c.target == some m
    | .new _ ctor _ => ctor == some m
    | _ => false

/-- The method and value of every assignment to a field, in statement order. -/
def fieldAssignments (p : Program) (f : Nat) : List (Nat × Nat) :=
  p.stmts.toList.filterMap fun s =>
    match s.kind with
    | .assign (.field g) v => if g == f then some (s.method, v) else none
    | _ => none

/-- The values assigned to a local variable, in source order. -/
def localAssignments (p : Program) (var : Nat) : List Nat :=
  let values := p.stmts.toList.filterMap fun s =>
    match s.kind with
    | .assign (.localVar w) v => if w == var then some v else none
    | _ => none
  values.mergeSort fun a b => decide ((p.expr a).offset ≤ (p.expr b).offset)

/-- Whether an expression is an argument of a class's annotation of a given name. -/
def isAnnotationArgument (p : Program) (c : Nat) (name : String) (id : Nat) : Bool :=
  match (p.cls c).annotation? name with
  | some a => a.args.any (·.2 == id)
  | none => false

/-- The parameter index of a variable, if it is a parameter. -/
def parameterIndex? (p : Program) (v : Nat) : Option Nat :=
  match (p.var v).kind with
  | .parameter i => some i
  | .localVar => none

end Program

end QueryScope
