import QueryScope.Host.Program
/-!
# Building host programs

A program is built by declaring its entities one after the other. Each declaration returns
the id of what it creates, the next free id of its kind. Methods and constructors become the
current owner when declared, as do the methods and classes entered explicitly; expressions
belong to the current owner, and statements need a current method (without one they are not
made). Each expression takes the next source position and becomes the parent of its
sub-expressions.
-/

namespace QueryScope

/-- A program being built: the program so far, the current owner and the next position. -/
structure Builder where
  program : Program := {}
  owner : Option Owner := none
  offset : Nat := 0

/-- Building a program. -/
abbrev Building := StateM Builder

namespace Builder

/-- Continue building an existing program, with no current owner, after its last position. -/
def ofProgram (p : Program) : Builder :=
  { program := p, owner := none,
    offset := p.exprs.foldl (fun m e => max m (e.offset + 1)) 0 }

/-- Change the program. -/
def modifyProgram (f : Program → Program) : Building Unit :=
  modify fun b => { b with program := f b.program }

/-- Declare a file. -/
def file (path : String) : Building Nat := do
  let b ← get
  set { b with program := { b.program with files := b.program.files.push path } }
  pure b.program.files.size

/-- Declare a class of a kind. -/
def declareClass (file : Nat) (name : String) (kind : ClassKind) : Building Nat := do
  let b ← get
  let c : Class := { name, kind, file }
  set { b with program := { b.program with classes := b.program.classes.push c } }
  pure b.program.classes.size

/-- Add a field to the program and to its class. -/
def pushField (f : Field) : Building Nat := do
  let b ← get
  let id := b.program.fields.size
  set { b with program := { b.program with
    fields := b.program.fields.push f,
    classes := b.program.classes.modify f.cls fun c => { c with fields := c.fields ++ [id] } } }
  pure id

/-- Declare an enum with its constants. -/
def enumeration (file : Nat) (name : String) (constants : List String) : Building Nat := do
  let c ← declareClass file name .enumeration
  for k in constants do
    let f : Field :=
      { name := k, cls := c, type := HostType.named name, isFinal := true, isEnumConstant := true }
    let _ ← pushField f
  pure c

/-- Give a class a superclass. -/
def extend (c : Nat) (parent : String) : Building Unit :=
  modifyProgram fun p => { p with classes := p.classes.modify c fun k => { k with superclass := some parent } }

/-- Annotate a class. -/
def annotate (c : Nat) (name : String) (args : List (String × Nat)) : Building Unit :=
  modifyProgram fun p => { p with classes := p.classes.modify c fun k =>
    { k with annotations := k.annotations ++ [⟨name, args⟩] } }

/-- Declare a field. -/
def field (c : Nat) (name : String) (t : HostType) : Building Nat :=
  pushField { name, cls := c, type := t }

/-- Declare a final field with an initializer. -/
def finalField (c : Nat) (name : String) (t : HostType) (init : Option Nat) : Building Nat :=
  pushField { name, cls := c, type := t, isFinal := true, initializer := init }

/-- Set the initializer of a field. -/
def setInitializer (f : Nat) (init : Nat) : Building Unit :=
  modifyProgram fun p => { p with fields := p.fields.modify f fun k => { k with initializer := some init } }

/-- Make a method the current owner. -/
def enter (m : Nat) : Building Unit := modify fun b => { b with owner := some (.method m) }

/-- Make a class body the current owner. -/
def enterClass (c : Nat) : Building Unit := modify fun b => { b with owner := some (.inClass c) }

/-- Declare a method or constructor and enter it. -/
def pushMethod (c : Nat) (name : String) (ret : Option HostType) (ctor : Bool) : Building Nat := do
  let b ← get
  let id := b.program.methods.size
  set { b with program := { b.program with
    methods := b.program.methods.push { name, cls := c, returnType := ret, isConstructor := ctor },
    classes := b.program.classes.modify c fun k => { k with methods := k.methods ++ [id] } } }
  enter id
  pure id

/-- Declare a method and enter it. -/
def method (c : Nat) (name : String) (ret : Option HostType) : Building Nat :=
  pushMethod c name ret false

/-- Declare a constructor, named after its class, and enter it. -/
def constructor (c : Nat) : Building Nat := do
  let name := ((← get).program.cls c).simpleName
  pushMethod c name none true

/-- Add a variable. -/
def pushVar (v : Variable) : Building Nat := do
  let b ← get
  set { b with program := { b.program with vars := b.program.vars.push v } }
  pure b.program.vars.size

/-- Declare the next parameter of a method. -/
def param (m : Nat) (name : String) (t : HostType) : Building Nat := do
  let index := ((← get).program.method m).params.length
  let id ← pushVar { name, type := t, method := m, kind := .parameter index }
  modifyProgram fun p => { p with methods := p.methods.modify m fun k => { k with params := k.params ++ [id] } }
  pure id

/-- Mark a method as taking a variable number of arguments. -/
def varargs (m : Nat) : Building Unit :=
  modifyProgram fun p => { p with methods := p.methods.modify m fun k => { k with isVarargs := true } }

/-- The current method. -/
def currentMethod : Building (Option Nat) := do
  match (← get).owner with
  | some (.method m) => pure (some m)
  | _ => pure none

/-- Add a statement to the current method's body. -/
def pushStmt (kind : StmtKind) : Building (Option Nat) := do
  match ← currentMethod with
  | none => pure none
  | some m => do
    let b ← get
    let id := b.program.stmts.size
    set { b with program := { b.program with
      stmts := b.program.stmts.push ⟨kind, m⟩,
      methods := b.program.methods.modify m fun k => { k with body := k.body ++ [id] } } }
    pure (some id)

/-- Declare a local variable of the current method. -/
def declareLocal (name : String) (t : HostType) (init : Option Nat) : Building (Option Nat) := do
  match ← currentMethod with
  | none => pure none
  | some m => do
    let id ← pushVar { name, type := t, method := m, kind := .localVar, initializer := init }
    let _ ← pushStmt (.declare id)
    pure (some id)

/-- A `return` statement. -/
def ret (v : Nat) : Building (Option Nat) := pushStmt (.ret (some v))

/-- An expression statement. -/
def exprStmt (e : Nat) : Building (Option Nat) := pushStmt (.expr e)

/-- An assignment to a field. -/
def assignField (f : Nat) (v : Nat) : Building (Option Nat) := pushStmt (.assign (.field f) v)

/-- An assignment to a local variable. -/
def assignLocal (var : Nat) (v : Nat) : Building (Option Nat) := pushStmt (.assign (.localVar var) v)

/-- The sub-expressions of an expression shape. -/
def ExprKind.children : ExprKind → List Nat
  | .call c => c.receiver.toList ++ c.args
  | .paren inner => [inner]
  | .new _ _ args => args
  | .arrayInit items => items
  | _ => []

/-- Add an expression: it takes the next position and becomes its children's parent. -/
def pushExpr (kind : ExprKind) : Building Nat := do
  let b ← get
  let id := b.program.exprs.size
  let exprs := b.program.exprs.push { kind, owner := b.owner, offset := b.offset }
  let exprs := (ExprKind.children kind).foldl
    (fun es c => es.modify c fun e => { e with parent := some id }) exprs
  set { b with program := { b.program with exprs }, offset := b.offset + 1 }
  pure id

/-- A literal. -/
def literal (l : Literal) : Building Nat := pushExpr (.literal l)

/-- A reference to a local variable. -/
def localRef (v : Nat) : Building Nat := pushExpr (.reference (.localVar v))

/-- A reference to a field. -/
def fieldRef (f : Nat) : Building Nat := pushExpr (.reference (.field f))

/-- A type used as a static receiver. -/
def typeRef (name : String) : Building Nat := pushExpr (.reference (.typeName name))

/-- A parenthesised expression. -/
def paren (inner : Nat) : Building Nat := pushExpr (.paren inner)

/-- A call of a library method on a receiver. -/
def call (recv : Nat) (decl name : String) (args : List Nat) : Building Nat :=
  pushExpr (.call ⟨some recv, name, some decl, none, args⟩)

/-- A static call of a library method: a type receiver, then the call. -/
def staticCall (decl name : String) (args : List Nat) : Building Nat := do
  let recv ← typeRef decl
  call recv decl name args

/-- A call whose declaration is unknown. -/
def unresolvedCall (recv : Option Nat) (name : String) (args : List Nat) : Building Nat :=
  pushExpr (.call ⟨recv, name, none, none, args⟩)

/-- A call of a method of the program. -/
def invoke (recv : Option Nat) (m : Nat) (args : List Nat) : Building Nat := do
  let p := (← get).program
  let decl := p.method m
  pushExpr (.call ⟨recv, decl.name, some (p.cls decl.cls).name, some m, args⟩)

/-- A `super(…)` call of a constructor. -/
def superCall (ctor : Nat) (args : List Nat) : Building Nat := do
  let p := (← get).program
  pushExpr (.call ⟨none, "super", some (p.cls (p.method ctor).cls).name, some ctor, args⟩)

/-- An object creation of a library type. -/
def newObject (t : HostType) (args : List Nat) : Building Nat := pushExpr (.new t none args)

/-- An object creation through a constructor of the program. -/
def newInstance (ctor : Nat) (args : List Nat) : Building Nat := do
  let p := (← get).program
  pushExpr (.new (.named (p.cls (p.method ctor).cls).name) (some ctor) args)

/-- A class literal. -/
def classLiteral (t : HostType) : Building Nat := pushExpr (.classLiteral t)

/-- An array initializer. -/
def array (items : List Nat) : Building Nat := pushExpr (.arrayInit items)

/-- Record the static type of an expression. -/
def typed (e : Nat) (t : HostType) : Building Unit :=
  modifyProgram fun p => { p with exprs := p.exprs.modify e fun x => { x with type? := some t } }

end Builder

end QueryScope
