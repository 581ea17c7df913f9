import Kestrel.Syntax.Precedence

/-!
# How operators group

A grouping of a row is a tree over its members. The grouping that respects the levels of the
operators is the only one of its kind: whoever climbs through the row by binding power finds it, and
so does the reader that keeps the left operands that wait for the rest of their right side.
Operations in parentheses are operands here, so a grouping tells them from operations of the row.
-/

namespace Kestrel

/-- Operands with operators in front of them and between them; `due` tells whether an operand has
to come. -/
def RowItem.Alternates : (due : Bool) → List RowItem → Prop
  | true, .unary _ _ :: row => Alternates true row
  | true, .operand _ :: row => Alternates false row
  | false, .binary _ :: row => Alternates true row
  | false, [] => True
  | _, _ => False

/-- A tree over the members of a row. -/
inductive Grouping where
  | operand (value : Expression)
  | unary (operator : UnaryOperator) (span : Span) (body : Grouping)
  | binary (left : Grouping) (operator : BinaryOperator) (right : Grouping)

namespace Grouping

/-- The members in the order of the row. -/
def row : Grouping → List RowItem
  | operand value => [.operand value]
  | unary operator span body => .unary operator span :: body.row
  | binary left operator right => left.row ++ .binary operator :: right.row

/-- The syntax tree of a grouping. -/
def expression : Grouping → Expression
  | operand value => value
  | unary operator span body => body.expression.applyUnary (operator, span)
  | binary left operator right => left.expression.joinBinary operator right.expression

/-- The operator of the row that joins the whole, unless it is an operand with operators in front
of it. -/
def root? : Grouping → Option BinaryOperator
  | binary _ operator _ => some operator
  | _ => none

/-- The levels are respected: what is to the right of an operator is joined by operators of higher
levels, what is to its left by operators of the same level or higher ones, and no operator in front
of an operand takes in an operator between operands. -/
def Binds : Grouping → Prop
  | operand _ => True
  | unary _ _ body => body.root? = none ∧ body.Binds
  | binary left operator right =>
    (∀ inner ∈ left.root?, operator.level ≤ inner.level) ∧
      (∀ inner ∈ right.root?, operator.level < inner.level) ∧ left.Binds ∧ right.Binds

end Grouping

namespace BinaryOperator

/-- The operators between operands in groups that bind alike, the loosest first. -/
def byLevel : List (List BinaryOperator) :=
  [[.or], [.and], [.equal, .notEqual], [.less, .lessEqual, .greater, .greaterEqual],
    [.add, .subtract], [.multiply, .divide, .modulo]]

/-- The levels are numbered by the groups, from 1. -/
theorem level_eq (operator : BinaryOperator) :
    operator.level = byLevel.findIdx (operator ∈ ·) + 1 := by
  cases operator <;> rfl

/-- Every operator is in a group. -/
theorem exists_mem_byLevel (operator : BinaryOperator) : ∃ group ∈ byLevel, operator ∈ group := by
  have hmem : operator ∈ byLevel.flatten := by cases operator <;> decide
  exact List.mem_flatten.mp hmem

end BinaryOperator

/-- No operator between operands has the lowest level, where a climb starts. -/
theorem BinaryOperator.level_pos (operator : BinaryOperator) : 0 < operator.level := by
  cases operator <;> decide

/-- The level of the operators in front of operands. -/
def UnaryOperator.level : Nat := 7

/-- Operators in front of an operand bind tighter than all that stand between operands. -/
theorem BinaryOperator.level_lt (operator : BinaryOperator) :
    operator.level < UnaryOperator.level := by
  cases operator <;> decide

/-! ## Climbing by binding power -/

/-- Climbing through a row by binding power: an operand is read, or the one on the left is there
already, and is joined to what follows as long as the next operator has more than the power asked
for. The right side of an operator is read with the power of the operator's own level, and what an
operator in front of an operand applies to with just less than the power of these operators. What
was read comes before what is left of the row. -/
inductive Climbs : (power : Nat) → (left? : Option Grouping) → (row : List RowItem) →
    Grouping → (rest : List RowItem) → Prop
  | operand {power : Nat} {value : Expression} {row rest : List RowItem} {whole : Grouping} :
      Climbs power (some (.operand value)) row whole rest →
      Climbs power none (.operand value :: row) whole rest
  | unary {power : Nat} {operator : UnaryOperator} {span : Span} {row middle rest : List RowItem}
      {body whole : Grouping} :
      Climbs (UnaryOperator.level - 1) none row body middle →
      Climbs power (some (.unary operator span body)) middle whole rest →
      Climbs power none (.unary operator span :: row) whole rest
  | binary {power : Nat} {left right whole : Grouping} {operator : BinaryOperator}
      {row middle rest : List RowItem} :
      power < operator.level → Climbs operator.level none row right middle →
      Climbs power (some (.binary left operator right)) middle whole rest →
      Climbs power (some left) (.binary operator :: row) whole rest
  | lower {power : Nat} {left : Grouping} {operator : BinaryOperator} {row : List RowItem} :
      operator.level ≤ power →
      Climbs power (some left) (.binary operator :: row) left (.binary operator :: row)
  | finish {power : Nat} {left : Grouping} : Climbs power (some left) [] left []

/-- There is one way to climb through a row. -/
theorem Climbs.unique {power : Nat} {left? : Option Grouping} {row rest rest' : List RowItem}
    {whole whole' : Grouping} (hclimbs : Climbs power left? row whole rest)
    (hclimbs' : Climbs power left? row whole' rest') : whole = whole' ∧ rest = rest' := by
  induction hclimbs generalizing whole' rest' with
  | operand _ ih =>
    cases hclimbs' with
    | operand hclimbs' => exact ih hclimbs'
  | unary _ _ ihBody ih =>
    cases hclimbs' with
    | unary hbody hclimbs' =>
      obtain ⟨rfl, rfl⟩ := ihBody hbody
      exact ih hclimbs'
  | binary hpower _ _ ihRight ih =>
    cases hclimbs' with
    | binary _ hright hclimbs' =>
      obtain ⟨rfl, rfl⟩ := ihRight hright
      exact ih hclimbs'
    | lower hlower => omega
  | lower hlower =>
    cases hclimbs' with
    | binary hpower => omega
    | lower => exact ⟨rfl, rfl⟩
  | finish =>
    cases hclimbs'
    exact ⟨rfl, rfl⟩

/-- What is left of a row after an operand, if climbing with some power stops there. -/
def Stops (power : Nat) : List RowItem → Prop
  | [] => True
  | .binary operator :: _ => operator.level ≤ power
  | _ => False

/-- Where climbing with some power stops, it stops with a higher one. -/
theorem Stops.mono {power higher : Nat} {rest : List RowItem} (hstops : Stops power rest)
    (hle : power ≤ higher) : Stops higher rest := by
  cases rest with
  | nil => trivial
  | cons item row =>
    cases item with
    | binary operator => exact Nat.le_trans hstops hle
    | operand value => exact hstops.elim
    | unary operator span => exact hstops.elim

/-- Where climbing stops, it gives what was climbed so far. -/
theorem Stops.climbs {power : Nat} {rest : List RowItem} (hstops : Stops power rest)
    (left : Grouping) : Climbs power (some left) rest left rest := by
  cases rest with
  | nil => exact .finish
  | cons item row =>
    cases item with
    | binary operator => exact .lower hstops
    | operand value => exact hstops.elim
    | unary operator span => exact hstops.elim

namespace Grouping

/-- Whoever climbs through the row of a grouping that respects the levels has found the grouping
when its last member is read, and goes on from there. -/
theorem Binds.climbs {grouping whole : Grouping} (hbinds : grouping.Binds) {power : Nat}
    {rest last : List RowItem} (habove : ∀ root ∈ grouping.root?, power < root.level)
    (hends : Stops (UnaryOperator.level - 1) rest)
    (hstops : ∀ root ∈ grouping.root?, Stops root.level rest)
    (hgoesOn : Climbs power (some grouping) rest whole last) :
    Climbs power none (grouping.row ++ rest) whole last := by
  induction grouping generalizing power rest whole last with
  | operand value => exact .operand hgoesOn
  | unary operator span body ih =>
    obtain ⟨hroot, hbody⟩ := hbinds
    have hinner : Climbs (UnaryOperator.level - 1) none (body.row ++ rest) body rest := by
      apply ih hbody
      · simp [hroot]
      · exact hends
      · simp [hroot]
      · exact hends.climbs body
    exact .unary hinner hgoesOn
  | binary left operator right ihLeft ihRight =>
    obtain ⟨hleft, hright, hleftBinds, hrightBinds⟩ := hbinds
    have hpower : power < operator.level := habove operator rfl
    have hstops' : Stops operator.level rest := hstops operator rfl
    have hlevel := operator.level_lt
    have hinner : Climbs operator.level none (right.row ++ rest) right rest := by
      apply ihRight hrightBinds hright hends
      · intro inner hinner
        exact hstops'.mono (Nat.le_of_lt (hright inner hinner))
      · exact hstops'.climbs right
    rw [row, List.append_assoc, List.cons_append]
    apply ihLeft hleftBinds
    · intro inner hinner
      exact Nat.lt_of_lt_of_le hpower (hleft inner hinner)
    · change operator.level ≤ UnaryOperator.level - 1
      omega
    · exact hleft
    · exact .binary hpower hinner hgoesOn

/-- Climbing through the whole row of a grouping that respects the levels finds it. -/
theorem Binds.climbs_row {grouping : Grouping} (hbinds : grouping.Binds) :
    Climbs 0 none grouping.row grouping [] := by
  have hends : Climbs 0 none (grouping.row ++ []) grouping [] :=
    hbinds.climbs (fun root _ => root.level_pos) trivial (fun _ _ => trivial) .finish
  rwa [List.append_nil] at hends

/-- A row has one grouping at most that respects the levels. -/
theorem Binds.unique {grouping other : Grouping} (hbinds : grouping.Binds) (hbinds' : other.Binds)
    (hsame : other.row = grouping.row) : other = grouping := by
  have hother := hbinds'.climbs_row
  rw [hsame] at hother
  exact (hother.unique hbinds.climbs_row).1

end Grouping

/-! ## Reading with operands that wait -/

namespace Grouping

/-- An operand with the operators in front of it, the nearest first. -/
def fronted (operators : List (UnaryOperator × Span)) (body : Grouping) : Grouping :=
  operators.foldl (fun body operator => .unary operator.1 operator.2 body) body

variable {operators : List (UnaryOperator × Span)} {body : Grouping}

/-- Operators in front are applied to what they are in front of, the nearest first. -/
theorem expression_fronted :
    (body.fronted operators).expression =
      operators.foldl Expression.applyUnary body.expression := by
  induction operators generalizing body with
  | nil => rfl
  | cons operator operators ih => exact ih

/-- Operators in front come first in the row. -/
theorem row_fronted :
    (body.fronted operators).row =
      operators.reverse.map (fun operator => .unary operator.1 operator.2) ++ body.row := by
  induction operators generalizing body with
  | nil => rfl
  | cons operator operators ih =>
    rw [List.reverse_cons, List.map_append, List.append_assoc]
    exact ih

/-- Operators in front add no operator with two operands. -/
theorem root?_fronted (hroot : body.root? = none) : (body.fronted operators).root? = none := by
  induction operators generalizing body with
  | nil => exact hroot
  | cons operator operators ih => exact ih rfl

/-- What binds as the levels say does so with operators in front. -/
theorem binds_fronted (hroot : body.root? = none) (hbinds : body.Binds) :
    (body.fronted operators).Binds := by
  induction operators generalizing body with
  | nil => exact hbinds
  | cons operator operators ih => exact ih rfl ⟨hroot, hbinds⟩

end Grouping

/-- Groupings of the left operands that wait for the rest of their right side, the latest first. -/
abbrev WaitingGroupings := List (Grouping × BinaryOperator)

namespace WaitingGroupings

/-- The syntax trees of the groupings. -/
def operands (waiting : WaitingGroupings) : WaitingOperands :=
  waiting.map fun entry => (entry.1.expression, entry.2)

/-- What was read of the row so far, up to the latest operator between operands. -/
def row : WaitingGroupings → List RowItem
  | [] => []
  | (left, operator) :: waiting => row waiting ++ (left.row ++ [.binary operator])

/-- Each operand that waits respects the levels, with its own operator included, and the levels
rise towards the latest. -/
def Rising : WaitingGroupings → Prop
  | [] => True
  | (left, operator) :: waiting =>
    left.Binds ∧ (∀ inner ∈ left.root?, operator.level ≤ inner.level) ∧
      (∀ entry ∈ waiting, entry.2.level < operator.level) ∧ Rising waiting

/-- Closing the operations of a level and all higher ones leaves those that still wait below the
level, and a grouping of all that was closed. -/
theorem Rising.close {waiting : WaitingGroupings} (hrising : waiting.Rising) (level : Nat)
    {right : Grouping} (hbinds : right.Binds) (hleast : ∀ inner ∈ right.root?, level ≤ inner.level)
    (habove : ∀ entry ∈ waiting, ∀ inner ∈ right.root?, entry.2.level < inner.level) :
    ∃ (waiting' : WaitingGroupings) (left : Grouping),
      closeOperations level waiting.operands right.expression =
        (waiting'.operands, left.expression) ∧
      waiting'.Rising ∧ left.Binds ∧ (∀ inner ∈ left.root?, level ≤ inner.level) ∧
      (∀ entry ∈ waiting', entry.2.level < level) ∧
      waiting'.row ++ left.row = waiting.row ++ right.row := by
  induction waiting generalizing right with
  | nil => exact ⟨[], right, rfl, trivial, hbinds, hleast, by simp, rfl⟩
  | cons entry waiting ih =>
    obtain ⟨left, operator⟩ := entry
    obtain ⟨hleft, hlevel, hothers, hmore⟩ := hrising
    by_cases hclosed : level ≤ operator.level
    · have hright : ∀ inner ∈ right.root?, operator.level < inner.level :=
        habove (left, operator) (List.mem_cons_self ..)
      have hjoined : (Grouping.binary left operator right).Binds :=
        ⟨hlevel, hright, hleft, hbinds⟩
      obtain ⟨waiting', whole, hclose, hrising', hwhole, hleast', hbelow, hrow⟩ :=
        ih hmore hjoined (by rintro _ ⟨⟩; exact hclosed)
          (by rintro entry hentry _ ⟨⟩; exact hothers entry hentry)
      refine ⟨waiting', whole, ?_, hrising', hwhole, hleast', hbelow, ?_⟩
      · rw [← hclose]
        change closeOperations level ((left.expression, operator) :: operands waiting) _ = _
        rw [closeOperations, if_pos hclosed]
        rfl
      · rw [hrow]
        simp [row, Grouping.row]
    · refine ⟨(left, operator) :: waiting, right, ?_, ⟨hleft, hlevel, hothers, hmore⟩, hbinds,
        hleast, ?_, rfl⟩
      · change closeOperations level ((left.expression, operator) :: operands waiting) _ = _
        rw [closeOperations, if_neg hclosed]
        rfl
      · intro entry hentry
        rcases List.mem_cons.mp hentry with rfl | hentry
        · exact Nat.lt_of_not_le hclosed
        · have hbelow := hothers entry hentry
          omega

end WaitingGroupings

/-- Wherever in a row the reader is, the tree that it ends with is that of a grouping that respects
the levels, and its row is what was read before and all that comes. -/
theorem exists_grouping_of_treeOfRow? (items : List RowItem) :
    (∀ (waiting : WaitingGroupings) (operators : List (UnaryOperator × Span)),
      waiting.Rising → RowItem.Alternates true items →
      ∃ whole : Grouping, whole.Binds ∧
        treeOfRow? waiting.operands (.before operators) items = some whole.expression ∧
        whole.row = waiting.row ++
          (operators.reverse.map (fun operator => .unary operator.1 operator.2) ++ items)) ∧
    ∀ (waiting : WaitingGroupings) (operand : Grouping),
      waiting.Rising → operand.Binds → operand.root? = none → RowItem.Alternates false items →
      ∃ whole : Grouping, whole.Binds ∧
        treeOfRow? waiting.operands (.after operand.expression) items = some whole.expression ∧
        whole.row = waiting.row ++ (operand.row ++ items) := by
  induction items with
  | nil =>
    constructor
    · intro waiting operators _ halternates
      exact halternates.elim
    · intro waiting operand hrising hbinds hroot _
      obtain ⟨waiting', whole, hclose, -, hwhole, -, hbelow, hrow⟩ :=
        hrising.close 0 hbinds (by simp [hroot]) (by simp [hroot])
      have hnone : waiting' = [] := by
        apply List.eq_nil_iff_forall_not_mem.mpr
        intro entry hentry
        exact absurd (hbelow entry hentry) (Nat.not_lt_zero _)
      subst hnone
      refine ⟨whole, hwhole, ?_, ?_⟩
      · rw [treeOfRow?, hclose]
      · rw [List.append_nil]
        exact hrow
  | cons item items ih =>
    obtain ⟨ihBefore, ihAfter⟩ := ih
    constructor
    · intro waiting operators hrising halternates
      cases item with
      | operand value =>
        have hroot : (Grouping.operand value).root? = none := rfl
        obtain ⟨whole, hwhole, htree, hrow⟩ :=
          ihAfter waiting ((Grouping.operand value).fronted operators) hrising
            (Grouping.binds_fronted hroot trivial) (Grouping.root?_fronted hroot) halternates
        refine ⟨whole, hwhole, ?_, ?_⟩
        · rw [Grouping.expression_fronted] at htree
          exact htree
        · rw [hrow, Grouping.row_fronted]
          simp [Grouping.row]
      | unary operator span =>
        obtain ⟨whole, hwhole, htree, hrow⟩ :=
          ihBefore waiting ((operator, span) :: operators) hrising halternates
        refine ⟨whole, hwhole, htree, ?_⟩
        rw [hrow]
        simp
      | binary operator => exact halternates.elim
    · intro waiting operand hrising hbinds hroot halternates
      cases item with
      | operand value => exact halternates.elim
      | unary operator span => exact halternates.elim
      | binary operator =>
        obtain ⟨waiting', left, hclose, hrising', hleft, hlevel, hbelow, hclosedRow⟩ :=
          hrising.close operator.level hbinds (by simp [hroot]) (by simp [hroot])
        obtain ⟨whole, hwhole, htree, hrow⟩ :=
          ihBefore ((left, operator) :: waiting') [] ⟨hleft, hlevel, hbelow, hrising'⟩ halternates
        refine ⟨whole, hwhole, ?_, ?_⟩
        · rw [treeOfRow?, hclose]
          exact htree
        · have hbefore : waiting'.row ++ (left.row ++ .binary operator :: items) =
              waiting.row ++ (operand.row ++ .binary operator :: items) := by
            rw [← List.append_assoc, hclosedRow, List.append_assoc]
          rw [hrow, ← hbefore]
          simp [WaitingGroupings.row]

/-- A row of which operands and operators alternate has the tree of a grouping that respects the
levels. -/
theorem exists_grouping_of_row {items : List RowItem}
    (halternates : RowItem.Alternates true items) :
    ∃ whole : Grouping, whole.Binds ∧ Expression.ofRow? items = some whole.expression ∧
      whole.row = items :=
  (exists_grouping_of_treeOfRow? items).1 [] [] trivial halternates

end Kestrel
