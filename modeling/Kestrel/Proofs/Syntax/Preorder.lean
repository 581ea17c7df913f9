import Kestrel.Proofs.Syntax.Faults

/-!
# The nodes of a tree in the order of the text

The nodes of a tree are listed with each node before those inside it. In this order they start one
after the other, and a node either contains a later one or ends before it. If a tree has no meaning,
the fault is that of the first node in this order that finds one itself: whatever comes before it
has a meaning, or contains it.
-/

namespace Kestrel

mutual

/-- A node and all nodes inside it, in the order of the text. -/
def Node.all : Node → List Node
  | ⟨rule, start, stop, text, children⟩ => ⟨rule, start, stop, text, children⟩ :: allOf children

/-- Several nodes and all nodes inside them, in the order of the text. -/
def allOf : List Node → List Node
  | [] => []
  | node :: others => node.all ++ allOf others

end

section Lists

variable {node inner : Node} {nodes more : List Node} {property : Node → Prop}

/-- The nodes of a tree are its root and those inside. -/
theorem Node.all_eq (node : Node) : node.all = node :: allOf node.children := by
  cases node
  rfl

/-- A node is in its own tree. -/
theorem Node.mem_all_self (node : Node) : node ∈ node.all := by
  rw [node.all_eq]
  exact List.mem_cons_self ..

/-- The nodes of two rows of trees are those of both. -/
theorem allOf_append : allOf (nodes ++ more) = allOf nodes ++ allOf more := by
  induction nodes with
  | nil => rfl
  | cons node nodes ih => rw [List.cons_append, allOf, allOf, ih, List.append_assoc]

/-- A node of a row of trees is a node of one of them. -/
theorem mem_allOf : inner ∈ allOf nodes ↔ ∃ node ∈ nodes, inner ∈ node.all := by
  induction nodes with
  | nil => simp [allOf]
  | cons node nodes ih => simp [allOf, ih]

/-- What holds throughout a tree holds of all of its nodes. -/
theorem Node.Throughout.of_mem (hthroughout : node.Throughout property) :
    ∀ inner ∈ node.all, property inner := by
  induction hthroughout with
  | @intro node hhere _ ih =>
    rw [node.all_eq]
    refine List.forall_mem_cons.mpr ⟨hhere, fun inner hinner => ?_⟩
    obtain ⟨child, hchild, hmem⟩ := mem_allOf.mp hinner
    exact ih child hchild inner hmem

/-- The children of a node of a tree are nodes of the tree. -/
theorem Node.Throughout.child_mem (hthroughout : node.Throughout property) :
    ∀ inner ∈ node.all, ∀ child ∈ inner.children, child ∈ node.all := by
  induction hthroughout with
  | @intro node _ _ ih =>
    have hinside {child inner : Node} (hchild : child ∈ node.children)
        (hinner : inner ∈ child.all) : inner ∈ node.all := by
      rw [node.all_eq]
      exact List.mem_cons_of_mem _ (mem_allOf.mpr ⟨child, hchild, hinner⟩)
    intro inner hinner child hchild
    rw [node.all_eq] at hinner
    rcases List.mem_cons.mp hinner with rfl | hinner
    · exact hinside hchild child.mem_all_self
    · obtain ⟨parent, hparent, hmem⟩ := mem_allOf.mp hinner
      exact hinside hparent (ih parent hparent inner hmem child hchild)

end Lists

section Places

variable {source : String} {before after : Cursor} {nodes : List Node}

/-- All nodes of a row lie between its ends. -/
theorem Row.all_between (hrow : Row before nodes after) : ∀ inner ∈ allOf nodes,
    before.position.offset ≤ inner.start.offset ∧ inner.stop.offset ≤ after.position.offset := by
  induction hrow with
  | nil => exact List.forall_mem_nil _
  | @cons before start stop after rule text children others hleads hinside _ _ hothers' ihInside
      ihOthers =>
    have hstart := hleads.offset_le
    have hinside' := hinside.leads.offset_le
    have hstop := hothers'.leads.offset_le
    intro inner hinner
    rcases List.mem_append.mp hinner with hinner | hinner
    · rw [Node.all_eq] at hinner
      rcases List.mem_cons.mp hinner with rfl | hinner
      · exact ⟨hstart, hstop⟩
      · obtain ⟨hlow, hhigh⟩ := ihInside inner hinner
        omega
    · obtain ⟨hlow, hhigh⟩ := ihOthers inner hinner
      omega

/-- Of two nodes of a row the first contains the second or ends before it. -/
theorem Row.all_pairwise (hrow : Row before nodes after) : (allOf nodes).Pairwise
    fun first second =>
      second ∈ allOf first.children ∨ first.stop.offset ≤ second.start.offset := by
  induction hrow with
  | nil => exact .nil
  | @cons before start stop after rule text children others _ hinside _ _ hothers' ihInside
      ihOthers =>
    have hinside' := hinside.all_between
    have hothers := hothers'.all_between
    refine List.pairwise_append.mpr ⟨?_, ihOthers, fun first hfirst second hsecond => .inr ?_⟩
    · rw [Node.all_eq]
      exact .cons (fun second hsecond => .inl hsecond) ihInside
    · have hlow := (hothers second hsecond).1
      rw [Node.all_eq] at hfirst
      rcases List.mem_cons.mp hfirst with rfl | hfirst
      · exact hlow
      · exact Nat.le_trans (hinside' first hfirst).2 hlow

/-- All nodes of a row in a text are placed right. -/
theorem Row.all_sound (hrow : Row before nodes after) (hwithin : before.In source) :
    ∀ inner ∈ allOf nodes, inner.part.Sound source := by
  induction hrow with
  | nil => exact List.forall_mem_nil _
  | @cons before start stop after rule text children others hleads hinside hadvances hshape _
      ihInside ihOthers =>
    have hstart := hwithin.leads hleads
    have hnode : Row start [⟨rule, start.position, stop.position, text, children⟩] stop :=
      .cons (.refl _) hinside hadvances hshape (.nil (.refl _))
    refine List.forall_mem_append.mpr ⟨?_, ihOthers (hstart.leads hinside.leads)⟩
    rw [Node.all_eq]
    exact List.forall_mem_cons.mpr ⟨(hnode.inOrder hstart).2.1, ihInside hstart⟩

end Places

section Faults

variable {fault : SyntaxFault} {node : Node} {nodes : List Node}

/-- The first fault of nodes is that of a node after others that have a meaning. -/
theorem FirstFault.split (hfails : FirstFault fault (partsOf nodes)) : ∃ front node back,
    nodes = front ++ node :: back ∧ (∀ other ∈ front, other.part.HasMeaning) ∧
      node.part.meaning = .error fault := by
  induction nodes with
  | nil => cases hfails
  | cons node nodes ih =>
    cases hfails with
    | here hfails => exact ⟨[], node, nodes, rfl, List.forall_mem_nil _, hfails⟩
    | later hmeans hfails =>
      obtain ⟨front, found, back, rfl, hfront, hfound⟩ := ih hfails
      exact ⟨node :: front, found, back, rfl, List.forall_mem_cons.mpr ⟨hmeans, hfront⟩, hfound⟩

/-- A tree that is at fault has a node that finds the fault itself, and before it only nodes that
have a meaning or contain it. -/
theorem Node.Throughout.exists_fault (hwellFormed : node.Throughout Node.WellFormed)
    (hfails : node.part.meaning = .error fault) : ∃ front found back,
      node.all = front ++ found :: back ∧ found.rule.OwnFault (partsOf found.children) fault ∧
        found.part.meaning = .error fault ∧
        ∀ other ∈ front, other.part.HasMeaning ∨ found ∈ allOf other.children := by
  induction hwellFormed with
  | @intro node hhere hinside ih =>
    have hturn := hhere.inTurn fun child h => (hinside child h).apt
    rw [hfails] at hturn
    rcases hturn with howns | hfails'
    · exact ⟨[], node, allOf node.children, node.all_eq, howns, hfails, List.forall_mem_nil _⟩
    · obtain ⟨before, child, after, hchildren, hbefore, hchild⟩ := hfails'.split
      have hmem : child ∈ node.children := by simp [hchildren]
      obtain ⟨front, found, back, hall, howns, hfound, hfront⟩ := ih child hmem hchild
      have hinside' : allOf node.children =
          (allOf before ++ front) ++ found :: (back ++ allOf after) := by
        rw [hchildren, allOf_append, allOf, hall]
        simp
      refine ⟨node :: (allOf before ++ front), found, back ++ allOf after, ?_, howns, hfound, ?_⟩
      · rw [node.all_eq, hinside']
        rfl
      · refine List.forall_mem_cons.mpr ⟨.inr (by simp [hinside']), ?_⟩
        refine List.forall_mem_append.mpr ⟨fun other hother => .inl ?_, hfront⟩
        obtain ⟨sibling, hsibling, hother⟩ := mem_allOf.mp hother
        have hwell := hinside sibling (by simp [hchildren, hsibling])
        exact (hwell.hasMeaning (hbefore sibling hsibling)).of_mem other hother

end Faults

end Kestrel
