import Mathlib.Logic.Function.Iterate
import QueryScope.Proofs.Host.SyntaxGraph
import QueryScope.Lowering.HostTypes
/-!
# Static types of nested array initializers

The static type of an array initializer, when none is recorded, is the array of the static
type of its first item (`Program.staticType_arrayInit`). The dimensions of a type are counted
in a byte, and the array of a type adds one with byte arithmetic: the array of a type with 255
dimensions has none.

Main statement (`Program.staticType_arrayNest`): for `k` array initializers nested through
their first items around an expression of static type `t` (an `ArrayNest`), the static type is
`t` with `k` more dimensions counted modulo 256, and its stored type has as many array levels.
On the way `arrayOf` is handed the types `t`, `arrayOf t`, … of fewer than `k` more dimensions,
and one of them has 255 dimensions exactly when `t` and the nest have more than 255 together
(`exists_dims_eq_255_iff`). A single initializer around `new int[255 dimensions]` does it, in a
program a builder makes, and its static type is plain `int` (`staticType_wraps_newIntArray`).
-/

namespace QueryScope

namespace HostType

@[simp] theorem name_arrayOf (t : HostType) : t.arrayOf.name = t.name := by
  cases t
  rfl

@[simp] theorem args_arrayOf (t : HostType) : t.arrayOf.args = t.args := by
  cases t
  rfl

@[simp] theorem dims_arrayOf (t : HostType) : t.arrayOf.dims = t.dims + 1 := by
  cases t
  rfl

/-- `k` arrays around a type add `k` dimensions, modulo 256. -/
theorem dims_iterate_arrayOf (t : HostType) (k : Nat) :
    (Nat.iterate arrayOf k t).dims.toNat = (t.dims.toNat + k) % 256 := by
  induction k with
  | zero => simp [Nat.mod_eq_of_lt t.dims.toNat_lt]
  | succ k ih =>
    rw [Function.iterate_succ_apply', dims_arrayOf, UInt8.toNat_add, ih]
    simp only [UInt8.toNat_one]
    omega

theorem name_iterate_arrayOf (t : HostType) (k : Nat) : (Nat.iterate arrayOf k t).name = t.name := by
  induction k with
  | zero => rfl
  | succ k ih => rw [Function.iterate_succ_apply', name_arrayOf, ih]

theorem args_iterate_arrayOf (t : HostType) (k : Nat) : (Nat.iterate arrayOf k t).args = t.args := by
  induction k with
  | zero => rfl
  | succ k ih => rw [Function.iterate_succ_apply', args_arrayOf, ih]

/-- Making `k` arrays around `t` hands `arrayOf` a type of 255 dimensions exactly when `t` and
the `k` arrays have more than 255 dimensions together. -/
theorem exists_dims_eq_255_iff (t : HostType) (k : Nat) :
    (∃ j < k, (Nat.iterate arrayOf j t).dims = 255) ↔ 255 < t.dims.toNat + k := by
  have hdims : t.dims.toNat < 256 := t.dims.toNat_lt
  have hiff : ∀ j, (Nat.iterate arrayOf j t).dims = 255 ↔ (t.dims.toNat + j) % 256 = 255 := by
    intro j
    rw [← dims_iterate_arrayOf, ← UInt8.toNat_inj]
    rfl
  simp only [hiff]
  constructor
  · rintro ⟨j, hj, h⟩
    omega
  · intro h
    exact ⟨255 - t.dims.toNat, by omega, by omega⟩

end HostType

namespace Program

variable {p : Program}

/-- The stored type of a type is its element's, wrapped once per dimension. -/
theorem bsonOf_eq_repeat (p : Program) (t : HostType) :
    p.bsonOf t = Nat.repeat Bson.array t.dims.toNat (p.bsonOf (.mk t.name t.args 0)) := by
  cases t with
  | mk n as d =>
    rw [bsonOf.eq_def, bsonOf.eq_def]
    rfl

/-- An array initializer with no recorded type has the array of its first item's static
type. -/
theorem staticType_arrayInit {e g : Nat} {rest : List Nat} {t : HostType}
    (htype : (p.expr e).type? = none) (hkind : (p.expr e).kind = .arrayInit (g :: rest))
    (hlt : g < e) (ht : p.staticType? g = some t) : p.staticType? e = some t.arrayOf := by
  rw [staticType?]
  simp only [htype, hkind, if_pos hlt, ht]

/-- An object creation with no recorded type has the type it creates. -/
theorem staticType_new {e : Nat} {t : HostType} {ctor : Option Nat} {args : List Nat}
    (htype : (p.expr e).type? = none) (hkind : (p.expr e).kind = .new t ctor args) :
    p.staticType? e = some t := by
  rw [staticType?]
  simp only [htype, hkind]

/-- A parenthesised expression with no recorded type has the static type of what it holds. -/
theorem staticType_paren {e inner : Nat} (htype : (p.expr e).type? = none)
    (hkind : (p.expr e).kind = .paren inner) (hlt : inner < e) :
    p.staticType? e = p.staticType? inner := by
  rw [staticType?]
  simp only [htype, hkind, if_pos hlt]

/-- `e` reaches `f` through `k` array initializers, each taken to its first item, and any
number of parentheses, none of them with a recorded type: the path the static type of `e`
follows. -/
inductive ArrayNest (p : Program) : Nat → Nat → Nat → Prop
  | here (f : Nat) : ArrayNest p f 0 f
  | paren {e inner k f : Nat} : (p.expr e).type? = none → (p.expr e).kind = .paren inner →
      inner < e → ArrayNest p inner k f → ArrayNest p e k f
  | wrap {e g k f : Nat} {rest : List Nat} : (p.expr e).type? = none →
      (p.expr e).kind = .arrayInit (g :: rest) → g < e → ArrayNest p g k f →
      ArrayNest p e (k + 1) f

/-- The static type of a nest is the static type inside it with one array per level. -/
theorem ArrayNest.staticType {e k f : Nat} (h : p.ArrayNest e k f) {t : HostType}
    (ht : p.staticType? f = some t) : p.staticType? e = some (Nat.iterate HostType.arrayOf k t) := by
  -- one array per initializer on the path, none per parenthesis
  induction h with
  | here => exact ht
  | paren htype hkind hlt _ ih => rw [staticType_paren htype hkind hlt, ih ht]
  | wrap htype hkind hlt _ ih =>
    rw [staticType_arrayInit htype hkind hlt (ih ht), Function.iterate_succ_apply']

/-- Around an expression of static type `t`, `k` nested array initializers have the static type
of `t` with `k` more dimensions modulo 256, stored as that many arrays around `t`'s element; the
types handed to `arrayOf` on the way reach 255 dimensions, where the byte wraps, exactly when
`t` and the nest have more than 255 dimensions together. -/
theorem staticType_arrayNest (p : Program) {e k f : Nat} {t : HostType} (h : p.ArrayNest e k f)
    (ht : p.staticType? f = some t) :
    p.staticType? e = some (Nat.iterate HostType.arrayOf k t) ∧
    (Nat.iterate HostType.arrayOf k t).dims.toNat = (t.dims.toNat + k) % 256 ∧
    ((∃ j < k, (Nat.iterate HostType.arrayOf j t).dims = 255) ↔ 255 < t.dims.toNat + k) ∧
    p.bsonOf (Nat.iterate HostType.arrayOf k t) =
      Nat.repeat Bson.array ((t.dims.toNat + k) % 256) (p.bsonOf (.mk t.name t.args 0)) := by
  refine ⟨h.staticType ht, HostType.dims_iterate_arrayOf t k, HostType.exists_dims_eq_255_iff t k, ?_⟩
  rw [bsonOf_eq_repeat, HostType.dims_iterate_arrayOf, HostType.name_iterate_arrayOf,
    HostType.args_iterate_arrayOf]

end Program

namespace Builder

/-- Two array initializers around `new int` of 254 dimensions. -/
def nestedIntArrays : Builder :=
  (BuildCall.array [1]).exec <| (BuildCall.array [0]).exec <|
    (BuildCall.newObject (.mk "int" [] 254) []).exec {}

theorem staticType_arrayNest_nestedIntArrays :
    nestedIntArrays.program.ArrayNest 2 2 0 ∧
    nestedIntArrays.program.staticType? 0 = some (.mk "int" [] 254) ∧
    (nestedIntArrays.program.staticType? 2 =
        some (Nat.iterate HostType.arrayOf 2 (.mk "int" [] 254)) ∧
      (Nat.iterate HostType.arrayOf 2 (.mk "int" [] 254)).dims.toNat = (254 + 2) % 256 ∧
      ((∃ j < 2, (Nat.iterate HostType.arrayOf j (.mk "int" [] 254)).dims = 255) ↔
        255 < 254 + 2) ∧
      nestedIntArrays.program.bsonOf (Nat.iterate HostType.arrayOf 2 (.mk "int" [] 254)) =
        Nat.repeat Bson.array ((254 + 2) % 256) (nestedIntArrays.program.bsonOf (.mk "int" [] 0))) := by
  have hnest : nestedIntArrays.program.ArrayNest 2 2 0 :=
    .wrap (g := 1) (by decide) rfl (by decide) (.wrap (g := 0) (by decide) rfl (by decide) (.here 0))
  have hnew : nestedIntArrays.program.staticType? 0 = some (.mk "int" [] 254) :=
    Program.staticType_new (by decide) rfl
  exact ⟨hnest, hnew, Program.staticType_arrayNest _ hnest hnew⟩

/-- One array initializer around `new int` of 255 dimensions. -/
def wrappedIntArray : Builder :=
  (BuildCall.array [0]).exec <| (BuildCall.newObject (.mk "int" [] 255) []).exec {}

/-- A built program whose static types hand `arrayOf` a type of 255 dimensions: the array
initializer around `new int` of 255 dimensions has the static type `int`, of no dimension,
stored as a 32-bit integer. -/
theorem staticType_wraps_newIntArray :
    Reachable wrappedIntArray ∧
    (wrappedIntArray.program.expr 1).kind = .arrayInit [0] ∧
    wrappedIntArray.program.staticType? 0 = some (.mk "int" [] 255) ∧
    wrappedIntArray.program.staticType? 1 = some (HostType.mk "int" [] 255).arrayOf ∧
    (HostType.mk "int" [] 255).arrayOf = .mk "int" [] 0 ∧
    wrappedIntArray.program.bsonOf (.mk "int" [] 0) = .int32 := by
  have hnew : wrappedIntArray.program.staticType? 0 = some (.mk "int" [] 255) :=
    Program.staticType_new (by decide) rfl
  refine ⟨.step _ (Reachable.new.exec _ rfl) fun i hi => ?_, rfl, hnew,
    Program.staticType_arrayInit (by decide) rfl (by decide) hnew, rfl, ?_⟩
  · -- the item is the object creation made before it
    simp only [BuildCall.subExprs, List.mem_singleton] at hi
    subst hi
    decide
  · rw [Program.bsonOf.eq_def]
    rfl

end Builder

end QueryScope
