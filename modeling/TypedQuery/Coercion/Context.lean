import TypedQuery.Outcome.Basic
import TypedQuery.Types.Graph

/-!
# Contexts of coercion

A context holds the variables supplied with a request and the variables that its operation
declares.

* `Fault`: why a coercion has no outcome;
* `Context.reading`: what a reference to a variable stands for at a typed position;
* `Context.standsEmpty`: the references that leave the default of their position in force;
* `Context.inline`: the raw value that a scalar reads, its references replaced.
-/

namespace TypedQuery

/-- Why a coercion has no outcome: it never ends, or what it has to tell shows a value that has no
text. -/
inductive Fault
  | endless
  | textless
  deriving DecidableEq

structure VariableDefinition (ν : Type) where
  name : String
  type : TypeRef (TypeId ν)
  /-- The default as written in the operation. -/
  default : Option Raw

structure Context (ν : Type) where
  supplied : Members Value
  definitions : List (VariableDefinition ν)

namespace Context

variable {ν : Type}

/-- The context without variables. -/
def empty : Context ν := ⟨[], []⟩

/-- The value supplied for a variable; undefined is none. -/
def supplied? (ctx : Context ν) (name : String) : Option Value :=
  match ctx.supplied.get? name with
  | some .undefined => none
  | value => value

/-- The last definition of a variable. -/
def definition? (ctx : Context ν) (name : String) : Option (VariableDefinition ν) :=
  ctx.definitions.reverse.find? (fun d => d.name = name)

def default? (ctx : Context ν) (name : String) : Option Raw :=
  (ctx.definition? name).bind (·.default)

/-! ## Variables at typed positions -/

/-- What a variable stands for where `expected` is expected: its supplied value, else its default,
else nothing. A variable declared with a required type, or undeclared where one is expected, must
have a value, and the supplied value must not be null. -/
def reading (g : TypeGraph ν) (ctx : Context ν) (name : String) (expected : TypeRef (TypeId ν))
    (path : Path) : Except Failure Raw :=
  let declared := ((ctx.definition? name).map (·.type)).getD expected
  match ctx.supplied? name with
  | some value =>
    if value.isNull && declared.isRequired then
      .error (.valueRequired path (g.print declared) "null")
    else .ok (.external value)
  | none =>
    match ctx.default? name with
    | some literal => .ok literal
    | none =>
      if declared.isRequired then .error (.missingVariable path name (g.print declared))
      else .ok .absent

/-- Whether a raw value is a reference to a variable that stands for nothing: it is not supplied,
has no default, and is not declared with a required type. -/
def standsEmpty (ctx : Context ν) : Raw → Bool
  | .variable name =>
    (ctx.supplied? name).isNone &&
      match ctx.definition? name with
      | some d => d.default.isNone && !d.type.isRequired
      | none => true
  | _ => false

/-- Whether the default of a position stands in for a raw value. -/
def leavesDefault (ctx : Context ν) (raw : Raw) : Bool := raw.isAbsent || ctx.standsEmpty raw

/-! ## Variables inside the literals of scalars -/

/-- A raw value without references, and the failures met in making it. -/
abbrev Inlined := Raw × List Failure

mutual

/-- Replaces the references in a raw value as `look` says. In a list nothing becomes null. -/
def inlineWith (look : String → Except Fault Inlined) : Raw → Except Fault Inlined
  | .list items => (inlineItems look items).map fun r => (.list r.1, r.2)
  | .object fields => (inlineFields look fields).map fun r => (.object r.1, r.2)
  | .variable name => look name
  | raw => .ok (raw, [])

def inlineItems (look : String → Except Fault Inlined) :
    List Raw → Except Fault (List Raw × List Failure)
  | [] => .ok ([], [])
  | item :: rest => do
    let (raw, failures) ← inlineWith look item
    let (raws, more) ← inlineItems look rest
    return ((if raw.isAbsent then .null else raw) :: raws, failures ++ more)

/-- A field that holds nothing is dropped. -/
def inlineFields (look : String → Except Fault Inlined) :
    List (String × Raw) → Except Fault (List (String × Raw) × List Failure)
  | [] => .ok ([], [])
  | (name, held) :: rest => do
    let (raw, failures) ← inlineWith look held
    let (raws, more) ← inlineFields look rest
    return (if raw.isAbsent then raws else (name, raw) :: raws, failures ++ more)

end

/-- The raw value that a reference inside a literal stands for, when at most `hops` references
lead from one to the next. No chain of different variables is longer than the definitions, so a
chain that exceeds them never ends. -/
def inlineVariable (g : TypeGraph ν) (ctx : Context ν) (path : Path) :
    Nat → String → Except Fault Inlined
  | 0, _ => .error .endless
  | hops + 1, name =>
    let required := ((ctx.definition? name).map (·.type)).filter TypeRef.isRequired
    match ctx.supplied? name with
    | some value =>
      let failures :=
        if value.isNull then
          required.toList.map fun type => .valueRequired path (g.print type) "null"
        else []
      .ok (.external value, failures)
    | none =>
      match ctx.default? name with
      | some literal => inlineWith (inlineVariable g ctx path hops) literal
      | none =>
        .ok (.absent, required.toList.map fun type => .missingVariable path name (g.print type))

/-- The raw value that a scalar reads: each reference replaced by the supplied value of its
variable, else by its default, else left out of an object and null in a list. -/
def inline (g : TypeGraph ν) (ctx : Context ν) (path : Path) (raw : Raw) :
    Except Fault Inlined :=
  inlineWith (inlineVariable g ctx path (ctx.definitions.length + 1)) raw

end Context

end TypedQuery
