import Taomee.Mmtree.Calls

/-!
# Balance after a removal

The repair of `mmt_remove_color` turns a black sibling red without looking at its
children. It restores the balance exactly as long as it never meets a sibling with
a red child on its way up.
-/

namespace Taomee.Mmtree

open RBTree RBTree.RBNode RBTree.RBColor RedBlack

variable {frames : List (Frame Slot)}

/-- Neither child is red. -/
def BlackChildren : RBNode Slot → Prop
  | .nil => True
  | .node _ l _ r => l.isRed = black ∧ r.isRed = black

instance : DecidablePred BlackChildren := fun tree =>
  match tree with
  | .nil => .isTrue trivial
  | .node _ l _ r => inferInstanceAs (Decidable (l.isRed = black ∧ r.isRed = black))

/-- No sibling that the repair recolours has a red child: the sibling itself, or,
when that is red, its near child. The repair goes on above a black parent with a
black sibling. -/
def BlackNephews : List (Frame Slot) → Prop
  | [] => True
  | frame :: rest =>
    (frame.sibling.isRed = red → BlackChildren (childOn frame.side frame.sibling)) ∧
      (frame.sibling.isRed = black → BlackChildren frame.sibling ∧
        (frame.color = black → BlackNephews rest))

instance decidableBlackNephews : DecidablePred BlackNephews
  | [] => .isTrue trivial
  | _ :: rest =>
    haveI := decidableBlackNephews rest
    inferInstanceAs (Decidable (_ ∧ _))

/-- Removing the node at a cursor meets no sibling with a red child. -/
def Mendable (frames : List (Frame Slot)) (tree : RBNode Slot) : Prop :=
  (vacate frames tree).2.2 = black → (vacate frames tree).2.1.isRed = black →
    BlackNephews (vacate frames tree).1

instance (frames : List (Frame Slot)) (tree : RBNode Slot) : Decidable (Mendable frames tree) :=
  inferInstanceAs (Decidable (_ → _))

/-- A red cursor is blackened and the repair ends. -/
theorem fixRemove_of_red (sentinel : RBColor) (frames : List (Frame Slot)) {tree : RBNode Slot}
    (treeRed : tree.isRed = red) : fixRemove sentinel frames tree = plug frames tree.setBlack := by
  cases frames with
  | nil => rfl
  | cons frame rest => rw [fixRemove, if_pos treeRed]

/-- A node with balanced black children of a red or black root. -/
theorem BlackChildren.balanced_red {c : RBColor} {l r : RBNode Slot} {s : Slot} {n : Nat}
    (black : BlackChildren (.node .black l s r)) (balanced : (RBNode.node .black l s r).Balanced c n) :
    ∃ k, n = k + 1 ∧ (RBNode.node .red l s r).Balanced .red k := by
  cases balanced with
  | black left right =>
    have leftColor := (isRed_eq_of_balanced left).symm.trans black.1
    have rightColor := (isRed_eq_of_balanced right).symm.trans black.2
    subst leftColor rightColor
    exact ⟨_, rfl, .red left right⟩

/-- The repair of a cursor that is one black node short gives a balanced tree when
no sibling it recolours has a red child. -/
theorem balanced_fixRemove {p : RBColor} {n : Nat} {tree : RBNode Slot} (sentinel : RBColor)
    (fits : Fits frames p (n + 1)) (short : tree.Balanced black n) (nephews : BlackNephews frames) :
    Balances (fixRemove sentinel frames tree) := by
  induction frames generalizing p n tree with
  | nil => exact short.setBlack
  | cons frame rest ih =>
    obtain ⟨side, c, f, sibling⟩ := frame
    have notRed : tree.isRed ≠ red := by
      rw [isRed_eq_of_balanced short]
      decide
    rw [fixRemove, if_neg notRed]
    cases fits with
    | underRed siblingBalanced above =>
      cases siblingBalanced with
      | black left right =>
        obtain ⟨k, same, recolored⟩ := (nephews.2 rfl).1.balanced_red (.black left right)
        cases same
        simp only
        rw [fixRemove_of_red _ _ (isRed_sided _ _ _ _ _), setBlack_sided]
        exact above.plug (balanced_sided_black short recolored) (by simp)
    | underBlack siblingBalanced above =>
      cases siblingBalanced with
      | black left right =>
        obtain ⟨k, same, recolored⟩ := (nephews.2 rfl).1.balanced_red (.black left right)
        cases same
        exact ih above (balanced_sided_black short recolored) ((nephews.2 rfl).2 rfl)
      | @red l _ r u left right =>
        obtain ⟨near, far, sameNode⟩ := exists_sided side red l r u
        have balanced : (sided side red near u far).Balanced red (n + 1) :=
          sameNode ▸ .red left right
        obtain ⟨_, nearBalanced, farBalanced⟩ := balanced_sided_red_inv balanced
        have nearBlack := nephews.1 rfl
        simp only [sameNode, childOn_sided] at nearBlack
        simp only [sameNode, childOn_sided, childOn_other_sided]
        cases nearBalanced with
        | black nearLeft nearRight =>
          obtain ⟨k, same, recolored⟩ := nearBlack.balanced_red (.black nearLeft nearRight)
          cases same
          exact (Fits.underBlack farBalanced above).plug
            (balanced_sided_black short recolored) (fun _ => rfl)

/-- What a balanced tree is like around the place that becomes vacant: a red node
there has no child, and below a black one the child is at most one red node. -/
theorem fits_vacate {c : RBColor} {l r : RBNode Slot} {s : Slot}
    (balances : Balances (plug frames (.node c l s r))) :
    ∃ p k d, Fits (vacate frames (.node c l s r)).1 p k ∧
      (vacate frames (.node c l s r)).2.1.Balanced d 0 ∧
      match (vacate frames (.node c l s r)).2.2 with
      | red => k = 0 ∧ d = black
      | black => k = 1 := by
  -- A node with at most one child, on whichever side.
  have oneChild : ∀ frames' side c' child s', Balances (plug frames' (sided side c' child s' .nil)) →
      ∃ p k d, Fits frames' p k ∧ child.Balanced d 0 ∧
        match c' with
        | red => k = 0 ∧ d = black
        | black => k = 1 := by
    rintro frames' side c' child s' ⟨n, balanced⟩
    obtain ⟨p, _, k, fits, here, _⟩ := fits_of_plug balanced
    cases c' with
    | red =>
      obtain ⟨_, childBalanced, leaf⟩ := balanced_sided_red_inv here
      cases leaf
      exact ⟨p, 0, black, fits, childBalanced, rfl, rfl⟩
    | black =>
      obtain ⟨_, _, d, _, rfl, childBalanced, leaf⟩ := balanced_sided_black_inv here
      cases leaf
      exact ⟨p, 1, d, fits, childBalanced, rfl⟩
  cases l with
  | nil => exact oneChild frames .right c r s balances
  | node cl ll sl lr =>
    cases r with
    | nil => exact oneChild frames .left c _ s balances
    | node cr rl sr rr =>
      obtain ⟨spine, cs, t, rest, found, whole, _⟩ := descendLeft_spec cr rl rr sr
      have renamed := balances.replace t
      rw [← whole] at renamed
      have below : Balances (plug (spine ++ ⟨.right, c, t, .node cl ll sl lr⟩ :: frames)
          (sided .right cs rest t .nil)) := by
        rw [plug_append]
        exact renamed
      simp only [vacate, found, List.append_nil]
      exact oneChild _ _ _ _ _ below

/-- A removal that meets no sibling with a red child keeps the balance. -/
theorem balances_erase {c : RBColor} {l r : RBNode Slot} {s : Slot} (sentinel : RBColor)
    (balances : Balances (plug frames (.node c l s r))) (mendable : Mendable frames (.node c l s r))
    : Balances (erase sentinel frames (.node c l s r)) := by
  obtain ⟨p, k, d, fits, child, colors⟩ := fits_vacate balances
  rw [Mendable] at mendable
  rw [erase]
  generalize vacate frames (.node c l s r) = vacated at *
  obtain ⟨frames', child', color⟩ := vacated
  cases color with
  | red =>
    obtain ⟨rfl, rfl⟩ := colors
    exact fits.plug child (fun _ => rfl)
  | black =>
    obtain rfl := colors
    simp only [if_true]
    cases d with
    | red =>
      rw [fixRemove_of_red _ _ (isRed_eq_of_balanced child)]
      exact fits.plug (balanced_setBlack_of_red child) (fun _ => rfl)
    | black =>
      exact balanced_fixRemove sentinel fits child (mendable rfl (isRed_eq_of_balanced child))

end Taomee.Mmtree
