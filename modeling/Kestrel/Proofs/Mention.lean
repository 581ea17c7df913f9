import Kestrel.Eval.Evaluator
import Kestrel.Proofs.OrderedMap
import Mathlib.Logic.Relation

/-!
# What values and cells mention

A value mentions the cell that it refers to, and a scope the cells of its chain, its module and the
cell that notes the module's imports. What a cell mentions is what its content mentions: this is
all that a program which has the cell can go on to.
-/

namespace Kestrel

/-- Something that a value, a scope or a cell can lead a program to. -/
inductive Mention where
  | cell {kind : CellKind} (ref : Ref kind)
  /-- The module that a scope belongs to. -/
  | module (key : String)

/-- Data that mentions cells and modules. -/
class Mentioning (α : Type) where
  mentions : α → List Mention

open Mentioning (mentions)

section Data

variable {α β : Type} [Mentioning α] [Mentioning β]

instance : Mentioning Unit := ⟨fun _ => []⟩

instance : Mentioning Bool := ⟨fun _ => []⟩

instance : Mentioning Nat := ⟨fun _ => []⟩

instance : Mentioning String := ⟨fun _ => []⟩

instance {kind : CellKind} : Mentioning (Ref kind) := ⟨fun ref => [.cell ref]⟩

instance : Mentioning (List α) := ⟨fun parts => parts.flatMap mentions⟩

instance : Mentioning (Option α) := ⟨fun part? => mentions part?.toList⟩

instance : Mentioning (Array α) := ⟨fun parts => mentions parts.toList⟩

instance : Mentioning (OrderedMap α) := ⟨fun map => mentions map.values⟩

instance : Mentioning (α × β) := ⟨fun pair => mentions pair.1 ++ mentions pair.2⟩

/-- Growing text is a cell. -/
def TextValue.mentions : TextValue → List Mention
  | fixed _ => []
  | buffer ref => [.cell ref]

instance : Mentioning TextValue := ⟨TextValue.mentions⟩

/-- Everything shared is a cell. -/
def Value.mentions : Value → List Mention
  | number _ | bool _ | nothing | error _ _ => []
  | text content => content.mentions
  | array ref => [.cell ref]
  | dictionary ref => [.cell ref]
  | struct ref => [.cell ref]
  | object ref => [.cell ref]
  | function ref => [.cell ref]
  | native ref => [.cell ref]
  | exports ref => [.cell ref]

instance : Mentioning Value := ⟨Value.mentions⟩

/-- A bound method mentions its receiver. -/
def Native.mentions : Native → List Mention
  | builtin _ => []
  | ofNumber _ _ => []
  | ofText receiver _ => receiver.mentions
  | ofArray receiver _ => [.cell receiver]
  | ofDictionary receiver _ => [.cell receiver]

instance : Mentioning Native := ⟨Native.mentions⟩

/-- The module of a scope with the cell for its imports. -/
def Scope.home (scope : Scope) : List Mention := [.module scope.module, .cell scope.imports]

instance : Mentioning Scope :=
  ⟨fun scope => scope.home ++ mentions (scope.here :: scope.outer)⟩

instance : Mentioning StructTemplate := ⟨fun template => mentions template.methods⟩

instance : Mentioning Instance := ⟨fun made => mentions (made.template, made.fields)⟩

instance : Mentioning Closure := ⟨fun closure => mentions (closure.scope, closure.receiver?)⟩

instance : Mentioning Exports := ⟨fun offered => mentions offered.members⟩

/-- A method mentions the object that it will be bound to. -/
def Property.mentions : Property → List Mention
  | value given => given.mentions
  | native callee => callee.mentions
  | method function object => [.cell function, .cell object]

instance : Mentioning Property := ⟨Property.mentions⟩

/-- A signal mentions what its value mentions. -/
def Signal.mentions : Signal → List Mention
  | value given => given.mentions
  | returned given => given.mentions
  | exit _ => []

instance : Mentioning Signal := ⟨Signal.mentions⟩

/-- A map mentions nothing new but what a new value mentions. -/
theorem mem_mentions_insert {map : OrderedMap α} {key : String} {value : α} {mention : Mention}
    (hmention : mention ∈ mentions (map.insert key value)) :
    mention ∈ mentions value ∨ mention ∈ mentions map := by
  obtain ⟨held, hheld, hheldMention⟩ := List.mem_flatMap.mp hmention
  rcases OrderedMap.mem_values_insert hheld with rfl | hheld
  · exact .inl hheldMention
  · exact .inr (List.mem_flatMap.mpr ⟨held, hheld, hheldMention⟩)

end Data

/-- What the content of a cell mentions. Text mentions nothing, and neither do noted imports, which
programs cannot read. -/
def CellKind.mentions : (kind : CellKind) → kind.Content → List Mention
  | .scope, bindings => Mentioning.mentions (bindings : OrderedMap Value)
  | .array, items => Mentioning.mentions (items : Array Value)
  | .dictionary, entries => Mentioning.mentions (entries : OrderedMap Value)
  | .buffer, _ => []
  | .struct, template => Mentioning.mentions (template : StructTemplate)
  | .object, made => Mentioning.mentions (made : Instance)
  | .function, closure => Mentioning.mentions (closure : Closure)
  | .native, callee => Mentioning.mentions (callee : Native)
  | .exports, offered => Mentioning.mentions (offered : Exports)
  | .imports, _ => []

namespace Store

/-- A cell refers to what its content mentions. -/
def Refers (store : Store) : Mention → Mention → Prop
  | @Mention.cell kind ref, mention => mention ∈ kind.mentions (store.get ref)
  | .module _, _ => False

/-- What can be reached by going from cells to what they refer to. -/
def Reaches (store : Store) : Mention → Mention → Prop := Relation.ReflTransGen store.Refers

end Store

end Kestrel
