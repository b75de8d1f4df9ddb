import QueryScope.Host.Samples
import QueryScope.Json.Value
import QueryScope.Text.Blank
/-!
# Program descriptions

A host program is described as a list of statements, each one call of the builder, run in
order; statements and expressions may carry a label (`as`) by which later ones refer to what
they created. Labels of files, classes, methods, fields, variables and expressions are kept
apart, and a later label replaces an earlier one of the same name. A description that refers
to an unknown label, or whose fields do not read, describes no program.

A bare JSON scalar is a literal: `null`, a boolean, a string, an integer (an `int` when it
fits 32 bits, a `long` when it fits 64) or another number (a `double`). Other expressions
are objects naming their kind in `e`.

A type is written `name<arg,arg>[][]` (blanks are ignored, names run up to one of `<>,[]`)
or as an object `{name, args, dims}`.
-/

namespace QueryScope

/-- The labels of a description, by kind of entity; the newest label comes first. -/
structure Labels where
  files : List (String × Nat) := []
  classes : List (String × Nat) := []
  methods : List (String × Nat) := []
  fields : List (String × Nat) := []
  vars : List (String × Nat) := []
  exprs : List (String × Nat) := []

/-- A program being described: the builder and the labels so far. -/
structure Description where
  builder : Builder := {}
  labels : Labels := {}

/-- Reading a description; `none` when it describes no program. -/
abbrev Reading := StateT Description Option

namespace Reading

/-- Run a builder step. -/
def build {α : Type} (x : Building α) : Reading α := fun d =>
  let (a, b) := x.run d.builder
  some (a, { d with builder := b })

/-- Fail: the description is invalid. -/
def fail {α : Type} : Reading α := fun _ => none

/-- A value that must be present. -/
def need {α : Type} : Option α → Reading α
  | some a => pure a
  | none => fail

/-- Change the labels. -/
def label (f : Labels → Labels) : Reading Unit := modify fun d => { d with labels := f d.labels }

/-- The label of the entity a statement creates, if it has one. -/
def labelOf (j : Json) : Reading (Option String) :=
  match j.get? "as" with
  | none | some .null => pure none
  | some (.str s) => pure (some s)
  | some _ => fail

/-- Look up a label. -/
def find (table : Labels → List (String × Nat)) (j : Json) : Reading Nat := do
  let name ← need j.str?
  need ((table (← get).labels).lookup name)

/-- A required member. -/
def member (j : Json) (k : String) : Reading Json := need (j.get? k)

/-- A required text member. -/
def text (j : Json) (k : String) : Reading String := do need (← member j k).str?

end Reading

open Reading

/-! ### Types -/

/-- A character that ends a name in a type's text. -/
def isTypeDelimiter (c : Char) : Bool := c == '<' || c == '>' || c == ',' || c == '[' || c == ']'

/-- Read the `[]` suffixes of a type. -/
def readDims : List Char → Nat × List Char
  | '[' :: ']' :: rest => let (d, r) := readDims rest; (d + 1, r)
  | cs => (0, cs)

mutual
/-- Read a type from the front of a text; `fuel` bounds the nesting. -/
def readType : Nat → List Char → Option (HostType × List Char)
  | 0, _ => none
  | fuel + 1, cs =>
    let name := cs.takeWhile (!isTypeDelimiter ·)
    if name.isEmpty then none
    else
      let rest := cs.dropWhile (!isTypeDelimiter ·)
      let parsed : Option (List HostType × List Char) := match rest with
        | '<' :: more => do
          let (args, after) ← readArgs fuel more
          match after with
          | '>' :: tail => some (args, tail)
          | _ => none
        | _ => some ([], rest)
      parsed.map fun (args, tail) =>
        let (dims, tail) := readDims tail
        (.mk (String.ofList name) args (UInt8.ofNat dims), tail)

/-- Read type arguments separated by commas. -/
def readArgs : Nat → List Char → Option (List HostType × List Char)
  | 0, _ => none
  | fuel + 1, cs => do
    let (t, rest) ← readType fuel cs
    match rest with
    | ',' :: more => do
      let (ts, after) ← readArgs fuel more
      pure (t :: ts, after)
    | _ => pure ([t], rest)
end

/-- Read a type's text, blanks ignored. -/
def HostType.parse? (s : String) : Option HostType := do
  let cs := s.toList.filter (!Char.isBlank ·)
  let (t, rest) ← readType (2 * cs.length + 2) cs
  if rest.isEmpty then some t else none

/-- Read a type given as text or as an object; `fuel` bounds the nesting. -/
def HostType.ofJson? : Nat → Json → Option HostType
  | 0, _ => none
  | _, .str s => HostType.parse? s
  | fuel + 1, j => do
    let name ← (← j.get? "name").str?
    let args ← match j.get? "args" with
      | none | some .null => some []
      | some (.arr xs) => xs.mapM (HostType.ofJson? fuel)
      | some _ => none
    let dims ← match j.get? "dims" with
      | none | some .null => some 0
      | some d => d.nat?
    if dims ≤ 255 then
      let base := match args with
        | [] => HostType.named name
        | _ => HostType.generic name args
      pure ((List.range dims).foldl (fun t _ => t.arrayOf) base)
    else none

/-- Read a type. -/
def readTypeJson (j : Json) : Reading HostType := need (HostType.ofJson? (j.depth + 1) j)

/-! ### Literals and expressions -/

/-- The smallest and largest 32-bit integers. -/
def int32Range (n : Int) : Bool := -2147483648 ≤ n && n ≤ 2147483647

/-- The smallest and largest 64-bit integers. -/
def int64Range (n : Int) : Bool := -9223372036854775808 ≤ n && n ≤ 9223372036854775807

/-- The literal a bare JSON scalar stands for. -/
def Literal.ofScalar? : Json → Option Literal
  | .null => some .null
  | .bool b => some (.boolean b)
  | .str s => some (.string s)
  | .int n => if int32Range n then some (.int n) else if int64Range n then some (.long n) else none
  | .num x => some (.double x)
  | _ => none

/-- The literal of an expression object of a literal kind. -/
def Literal.ofKind? (kind : String) (v : Json) : Option Literal :=
  match kind, v with
  | "null", _ => some .null
  | "bool", .bool b => some (.boolean b)
  | "str", .str s => some (.string s)
  | "int", .int n => if int32Range n then some (.int n) else none
  | "long", .int n => if int64Range n then some (.long n) else none
  | "double", .int n => some (.double (Float.ofInt n))
  | "double", .num x => some (.double x)
  | "double", .str "NaN" => some (.double (0.0 / 0.0))
  | "double", .str "inf" => some (.double (1.0 / 0.0))
  | "double", .str "-inf" => some (.double (-1.0 / 0.0))
  | "double", .str "-0" => some (.double (-0.0))
  | "char", .str s =>
    match s.toList with
    | [c] => some (.char c)
    | _ => none
  | _, _ => none

/-- An optional member: absent or `null` is none. -/
def optMember (j : Json) (k : String) : Option Json :=
  match j.get? k with
  | none | some .null => none
  | some v => some v

mutual
/-- Build an expression; `fuel` bounds the nesting. -/
def readExpr : Nat → Json → Reading Nat
  | 0, _ => fail
  | fuel + 1, j =>
    match j with
    | .obj _ => do
      let kind ← text j "e"
      if kind == "ref" then find (·.exprs) (← member j "to")
      else do
        let id ← readExprKind fuel kind j
        match optMember j "ty" with
        | some t => build (Builder.typed id (← readTypeJson t))
        | none => pure ()
        match ← labelOf j with
        | some l => label fun ls => { ls with exprs := (l, id) :: ls.exprs }
        | none => pure ()
        pure id
    | _ => do build (Builder.literal (← need (Literal.ofScalar? j)))

/-- Build the expression of a kind. -/
def readExprKind : Nat → String → Json → Reading Nat
  | 0, _, _ => fail
  | fuel + 1, kind, j =>
    match kind with
    | "null" | "bool" | "str" | "int" | "long" | "double" | "char" => do
      let v := (j.get? "v").getD .null
      build (Builder.literal (← need (Literal.ofKind? kind v)))
    | "local" => do build (Builder.localRef (← find (·.vars) (← member j "var")))
    | "field" => do build (Builder.fieldRef (← find (·.fields) (← member j "field")))
    | "type" => do build (Builder.typeRef (← text j "name"))
    | "paren" => do build (Builder.paren (← readExpr fuel (← member j "inner")))
    | "call" => do
      let on ← readExpr fuel (← member j "on")
      let decl ← text j "decl"
      let name ← text j "name"
      let args ← readExprs fuel (← member j "args")
      build (Builder.call on decl name args)
    | "static" => do
      let decl ← text j "decl"
      let name ← text j "name"
      let args ← readExprs fuel (← member j "args")
      build (Builder.staticCall decl name args)
    | "ucall" => do
      let on ← match optMember j "on" with
        | some o => some <$> readExpr fuel o
        | none => pure none
      let name ← text j "name"
      let args ← readExprs fuel (← member j "args")
      build (Builder.unresolvedCall on name args)
    | "invoke" => do
      let m ← find (·.methods) (← member j "method")
      let on ← match optMember j "on" with
        | some o => some <$> readExpr fuel o
        | none => pure none
      let args ← readExprs fuel (← member j "args")
      build (Builder.invoke on m args)
    | "super" => do
      let ctor ← find (·.methods) (← member j "ctor")
      let args ← readExprs fuel (← member j "args")
      build (Builder.superCall ctor args)
    | "new" => do
      let t ← readTypeJson (← member j "type")
      let args ← readExprs fuel (← member j "args")
      build (Builder.newObject t args)
    | "new_instance" => do
      let ctor ← find (·.methods) (← member j "ctor")
      let args ← readExprs fuel (← member j "args")
      build (Builder.newInstance ctor args)
    | "class_lit" => do build (Builder.classLiteral (← readTypeJson (← member j "type")))
    | "array" => do build (Builder.array (← readExprs fuel (← member j "items")))
    | _ => fail

/-- Build the expressions of an array, in order. -/
def readExprs : Nat → Json → Reading (List Nat)
  | 0, _ => fail
  | fuel + 1, .arr xs => readExprList fuel xs
  | _, _ => fail

/-- Build a list of expressions, in order. -/
def readExprList : Nat → List Json → Reading (List Nat)
  | _, [] => pure []
  | fuel, x :: xs => do
    let e ← readExpr fuel x
    let es ← readExprList fuel xs
    pure (e :: es)
end

/-- Build an expression of a description. -/
def readExprJson (j : Json) : Reading Nat := readExpr (2 * j.depth + 4) j

/-! ### Statements -/

/-- Label an entity of a kind, when the statement has a label. -/
def labelEntity (j : Json) (put : Labels → String → Labels) : Reading Unit := do
  match ← labelOf j with
  | some l => label (put · l)
  | none => pure ()

/-- Run one statement of a description. -/
def readStatement (j : Json) : Reading Unit := do
  let s ← text j "s"
  match s with
  | "file" => do
    let id ← build (Builder.file (← text j "path"))
    labelEntity j fun ls l => { ls with files := (l, id) :: ls.files }
  | "class" => do
    let f ← find (·.files) (← member j "file")
    let name ← text j "name"
    let kind ← match optMember j "kind" with
      | none => pure "class"
      | some k => need k.str?
    let id ← match kind with
      | "class" => build (Builder.declareClass f name .plain)
      | "interface" => build (Builder.declareClass f name .iface)
      | "enum" => do
        let constants ← match optMember j "constants" with
          | none => pure []
          | some cs => need (Json.arr? cs >>= fun xs => xs.mapM Json.str?)
        build (Builder.enumeration f name constants)
      | _ => fail
    labelEntity j fun ls l => { ls with classes := (l, id) :: ls.classes }
    match ← labelOf j with
    | some l =>
      if kind == "enum" then do
        let p := (← get).builder.program
        for fid in (p.cls id).fields do
          let fname := (p.field fid).name
          label fun ls => { ls with fields := (l ++ "." ++ fname, fid) :: ls.fields }
      else pure ()
    | none => pure ()
  | "extends" => do
    let c ← find (·.classes) (← member j "class")
    build (Builder.extend c (← text j "super"))
  | "annotate" => do
    let c ← find (·.classes) (← member j "class")
    let name ← text j "name"
    let args ← need (← member j "args").arr?
    let built ← args.mapM fun a => do
      match a with
      | .arr [k, v] => do
        let key ← need k.str?
        pure (key, ← readExprJson v)
      | _ => fail
    build (Builder.annotate c name built)
  | "field" => do
    let c ← find (·.classes) (← member j "class")
    let name ← text j "name"
    let t ← readTypeJson (← member j "type")
    let final ← match optMember j "final" with
      | none => pure false
      | some b => need b.bool?
    let id ← if final then do
        let init ← match optMember j "init" with
          | some i => some <$> readExprJson i
          | none => pure none
        build (Builder.finalField c name t init)
      else do
        let id ← build (Builder.field c name t)
        match optMember j "init" with
        | some i => do
          let init ← readExprJson i
          build (Builder.setInitializer id init)
        | none => pure ()
        pure id
    labelEntity j fun ls l => { ls with fields := (l, id) :: ls.fields }
  | "initialize" => do
    let f ← find (·.fields) (← member j "field")
    let v ← readExprJson (← member j "value")
    build (Builder.setInitializer f v)
  | "method" => do
    let c ← find (·.classes) (← member j "class")
    let name ← text j "name"
    let ret ← match optMember j "returns" with
      | some t => some <$> readTypeJson t
      | none => pure none
    let id ← build (Builder.method c name ret)
    labelEntity j fun ls l => { ls with methods := (l, id) :: ls.methods }
  | "constructor" => do
    let c ← find (·.classes) (← member j "class")
    let id ← build (Builder.constructor c)
    labelEntity j fun ls l => { ls with methods := (l, id) :: ls.methods }
  | "param" => do
    let m ← find (·.methods) (← member j "method")
    let name ← text j "name"
    let t ← readTypeJson (← member j "type")
    let id ← build (Builder.param m name t)
    labelEntity j fun ls l => { ls with vars := (l, id) :: ls.vars }
  | "varargs" => do build (Builder.varargs (← find (·.methods) (← member j "method")))
  | "enter" => do build (Builder.enter (← find (·.methods) (← member j "method")))
  | "enter_class" => do build (Builder.enterClass (← find (·.classes) (← member j "class")))
  | "local" => do
    let name ← text j "name"
    let t ← readTypeJson (← member j "type")
    let init ← match optMember j "init" with
      | some i => some <$> readExprJson i
      | none => pure none
    match ← build (Builder.declareLocal name t init) with
    | some id => labelEntity j fun ls l => { ls with vars := (l, id) :: ls.vars }
    | none => pure ()
  | "return" => do
    let v ← readExprJson (← member j "value")
    let _ ← build (Builder.ret v)
  | "expr" => do
    let v ← readExprJson (← member j "value")
    let _ ← build (Builder.exprStmt v)
  | "assign_field" => do
    let f ← find (·.fields) (← member j "field")
    let v ← readExprJson (← member j "value")
    let _ ← build (Builder.assignField f v)
  | "assign_local" => do
    let var ← find (·.vars) (← member j "var")
    let v ← readExprJson (← member j "value")
    let _ ← build (Builder.assignLocal var v)
  | "let" => do
    let _ ← readExprJson (← member j "value")
  | "typed" => do
    let e ← find (·.exprs) (← member j "expr")
    let t ← readTypeJson (← member j "type")
    build (Builder.typed e t)
  | _ => fail

/-- Run the statements of a description, in order. -/
def readStatements (js : List Json) : Reading Unit := js.forM readStatement

/-! ### Sample programs -/

/-- The sample program a fixture request names, with its labelled anchors. -/
def sampleOf? (name : String) (args : List Json) : Option Samples.Sample := do
  let strs ← args.mapM Json.str?
  match name, strs, args with
  | "find_eq", [d, c, f, v], _ => pure (Samples.findEq d c f v)
  | "find_all", [d, c], _ => pure (Samples.findAll d c)
  | "update_set", [d, c, f, v], _ => pure (Samples.updateSet d c f v)
  | "spring_find", [c, f, v], _ => pure (Samples.springFind c f v)
  | "spring_update_set", [c, f, v], _ => pure (Samples.springUpdateSet c f v)
  | _, _, _ => none

/-- The sample with `count` finds, when its arguments read. -/
def manyFindsOf? (args : List Json) : Option Samples.Sample :=
  match args with
  | [.str d, .str c, n] => do
    let k ← n.nat?
    if k ≤ 200 then pure (Samples.manyFinds d c k) else none
  | _ => none

/-- The labels of a sample's anchors. -/
def Samples.Sample.labels (s : Samples.Sample) (many : Bool) : Labels :=
  if many then { exprs := (s.anchors.zipIdx.map fun (a, i) => ("anchor" ++ toString i, a)).reverse }
  else { exprs := s.anchors.map fun a => ("anchor", a) }

/-- Read a program given as statements or as a sample, with its labels. -/
def Description.read? (j : Json) : Option Description :=
  match j with
  | .arr stmts => ((readStatements stmts).run {}).map (·.2)
  | .obj _ => do
    let name ← (← j.get? "fixture").str?
    let args ← match j.get? "args" with
      | none | some .null => some []
      | some (.arr xs) => some xs
      | some _ => none
    let (sample, many) ← if name == "many_finds" then (manyFindsOf? args).map (·, true)
      else (sampleOf? name args).map (·, false)
    pure { builder := Builder.ofProgram sample.program, labels := sample.labels many }
  | _ => none

/-- Continue a description with more statements. -/
def Description.extend? (d : Description) (stmts : List Json) : Option Description :=
  let d := { d with builder := Builder.ofProgram d.builder.program }
  ((readStatements stmts).run d).map (·.2)

/-- The program described. -/
def Description.program (d : Description) : Program := d.builder.program

/-- Read a target: a label, a raw id, or a list of those; `all` or nothing for every
expression. -/
def Description.targets? (d : Description) (at? : Option Json) : Option (List Nat) :=
  let one : Json → Option Nat := fun j =>
    match j with
    | .str s => d.labels.exprs.lookup s
    | .int n => if 0 ≤ n then some n.toNat else none
    | _ => none
  match at? with
  | none | some .null | some (.str "all") => some d.program.exprIds
  | some (.arr xs) => xs.mapM one
  | some j => (one j).map ([·])

end QueryScope
