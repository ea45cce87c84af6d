import EntryProbe.Proofs.RoundTrip

/-!
# What a rendered expression says

An expression is written without parentheses, and a tree has none. So the text of a tree
keeps its names, literals, calls and operators, and their order, but not how the tree
grouped them: what is read back is grouped by the strengths of the operators, and from
left to right where these are alike. `EntryProbe.Go.Expr.regroup` is that other tree.

| tree | text | regrouped |
|---|---|---|
| `a + (b + c)` | `a + b + c` | `(a + b) + c` |
| `(a != b) + c` | `a != b + c` | `a != (b + c)` |
| `(a + b).f` | `a + b.f` | `a + (b.f)` |

The trees that stay as they are when they are regrouped are the well-formed ones, whose
groups are those of the text (`EntryProbe.Go.Expr.regroup_eq_self_iff`), and two trees
have one text exactly if they are regrouped alike
(`EntryProbe.Go.renderExpr_regroups`).
-/

namespace EntryProbe.Go

/-! ### Regrouping -/

mutual

/-- Names are names and literals are quoted texts, however they are grouped. -/
def Expr.IsSpelled : Expr → Prop
  | .ident name => IsIdentifier name
  | .literal text => ∃ value, text = quote value
  | .selector operand member => operand.IsSpelled ∧ IsIdentifier member
  | .call function arguments => function.IsSpelled ∧ AreSpelled arguments
  | .binary left _ right => left.IsSpelled ∧ right.IsSpelled

/-- That holds of all of some expressions. -/
def AreSpelled : List Expr → Prop
  | [] => True
  | value :: rest => value.IsSpelled ∧ AreSpelled rest

end

/-- An operation put behind an expression: the operator takes what is at the end of the
expression and binds at least as tight. -/
def Expr.attach : Expr → BinaryOp → Expr → Expr
  | .binary left top right, op, value =>
    if top.strength < op.strength then .binary left top (right.attach op value)
    else .binary (.binary left top right) op value
  | whole, op, value => .binary whole op value

/-- An operator and a second expression put behind the first one: the operations of the
second expression go on one after the other. -/
def Expr.join (left : Expr) (op : BinaryOp) : Expr → Expr
  | .binary front next value => (left.join op front).attach next value
  | whole => left.attach op whole

/-- A selector or a call put behind an expression: it belongs to what is behind the last
operator. -/
def Expr.onLast (suffix : Expr → Expr) : Expr → Expr
  | .binary left op right => .binary left op (right.onLast suffix)
  | whole => suffix whole

mutual

/-- **The tree that the text of a tree stands for.** -/
def Expr.regroup : Expr → Expr
  | .ident name => .ident name
  | .literal text => .literal text
  | .selector operand member => operand.regroup.onLast fun last => .selector last member
  | .call function arguments =>
    function.regroup.onLast fun last => .call last (regroupAll arguments)
  | .binary left op right => left.regroup.join op right.regroup

/-- Expressions, each regrouped. -/
def regroupAll : List Expr → List Expr
  | [] => []
  | value :: rest => value.regroup :: regroupAll rest

end

/-! ### Operands and operations -/

/-- An expression that is no operation. -/
def Expr.IsOperand : Expr → Prop
  | .binary .. => False
  | _ => True

/-- What holds of operands, and of operations as soon as it holds of both sides, holds of
all expressions. -/
theorem Expr.operations {motive : Expr → Prop}
    (operand : ∀ value : Expr, value.IsOperand → motive value)
    (operation : ∀ left op right, motive left → motive right → motive (.binary left op right)) :
    ∀ value, motive value
  | .binary left op right =>
    operation left op right (operations operand operation left) (operations operand operation right)
  | .ident _ | .literal _ | .selector .. | .call .. => operand _ trivial

section

variable {whole : Expr} (h : whole.IsOperand)

include h

theorem Expr.IsOperand.attach (op : BinaryOp) (value : Expr) :
    whole.attach op value = .binary whole op value := by
  cases whole with
  | binary => exact h.elim
  | ident | literal | selector | call => rfl

theorem Expr.IsOperand.join (left : Expr) (op : BinaryOp) :
    left.join op whole = left.attach op whole := by
  cases whole with
  | binary => exact h.elim
  | ident | literal | selector | call => rfl

theorem Expr.IsOperand.onLast (suffix : Expr → Expr) : whole.onLast suffix = suffix whole := by
  cases whole with
  | binary => exact h.elim
  | ident | literal | selector | call => rfl

/-- An operand is well formed for all operators alike. -/
theorem Expr.IsOperand.wellFormed {level level' : Nat} (hformed : whole.WellFormed level) :
    whole.WellFormed level' := by
  cases whole with
  | binary => exact h.elim
  | ident | literal | selector | call => exact hformed

end

/-! ### The text stays -/

theorem renderExpr_attach (tree : Expr) (op : BinaryOp) (value : Expr) :
    renderExpr (tree.attach op value) =
      renderExpr tree ++ " " ++ op.text ++ " " ++ renderExpr value := by
  induction tree using Expr.operations with
  | operand tree h => rw [h.attach, renderExpr]
  | operation left top right _ ih =>
    rw [Expr.attach]
    split
    · simp only [renderExpr, ih, String.append_assoc]
    · rw [renderExpr]

theorem renderExpr_join (left : Expr) (op : BinaryOp) (right : Expr) :
    renderExpr (left.join op right) =
      renderExpr left ++ " " ++ op.text ++ " " ++ renderExpr right := by
  induction right using Expr.operations with
  | operand right h => rw [h.join, renderExpr_attach]
  | operation front next value ih _ =>
    rw [Expr.join, renderExpr_attach, ih]
    simp only [renderExpr, String.append_assoc]

theorem renderExpr_onLast {suffix : Expr → Expr} {text : String}
    (hsuffix : ∀ last, renderExpr (suffix last) = renderExpr last ++ text) (value : Expr) :
    renderExpr (value.onLast suffix) = renderExpr value ++ text := by
  induction value using Expr.operations with
  | operand value h => rw [h.onLast, hsuffix]
  | operation left op right _ ih =>
    rw [Expr.onLast]
    simp only [renderExpr, ih, String.append_assoc]

mutual

/-- **Regrouping keeps the text.** -/
theorem renderExpr_regroup : ∀ value : Expr, renderExpr value.regroup = renderExpr value
  | .ident _ => rfl
  | .literal _ => rfl
  | .selector operand member => by
    have hsuffix : ∀ last,
        renderExpr (.selector last member) = renderExpr last ++ ("." ++ member) :=
      fun last => by rw [renderExpr, String.append_assoc]
    rw [Expr.regroup, renderExpr_onLast hsuffix, renderExpr_regroup operand, hsuffix]
  | .call function arguments => by
    have hsuffix : ∀ last, renderExpr (.call last (regroupAll arguments)) =
        renderExpr last ++ ("(" ++ renderExprs arguments ++ ")") := fun last => by
      rw [renderExpr, renderExprs_regroupAll arguments]
      simp only [String.append_assoc]
    rw [Expr.regroup, renderExpr_onLast hsuffix, renderExpr_regroup function, renderExpr]
    simp only [String.append_assoc]
  | .binary left op right => by
    rw [Expr.regroup, renderExpr_join, renderExpr_regroup left, renderExpr_regroup right,
      renderExpr]

theorem renderExprs_regroupAll : ∀ values : List Expr,
    renderExprs (regroupAll values) = renderExprs values
  | [] => rfl
  | [value] => by
    simp only [regroupAll, renderExprs, renderExpr_regroup value]
  | value :: next :: rest => by
    have hrest := renderExprs_regroupAll (next :: rest)
    simp only [regroupAll] at hrest ⊢
    rw [renderExprs, hrest, renderExpr_regroup value, renderExprs]

end

/-! ### The groups are those of the text -/

theorem Expr.WellFormed.mono {value : Expr} {level level' : Nat} (h : value.WellFormed level)
    (hle : level' ≤ level) : value.WellFormed level' := by
  cases value with
  | binary left op right => exact ⟨Nat.le_trans hle h.1, h.2⟩
  | ident | literal | selector | call => exact h

/-- A name, a literal, a selector or a call binds tighter than any operator, and nothing
else does. -/
theorem Expr.WellFormed.isOperand {value : Expr} (h : value.WellFormed tightest) :
    value.IsOperand := by
  cases value with
  | binary left op right =>
    have hle : tightest ≤ op.strength := h.1
    cases op <;> exact absurd hle (by decide)
  | ident | literal | selector | call => trivial

theorem Expr.WellFormed.attach {tree value : Expr} {op : BinaryOp} {level : Nat}
    (htree : tree.WellFormed level) (hlevel : level ≤ op.strength)
    (hvalue : value.WellFormed (op.strength + 1)) : (tree.attach op value).WellFormed level := by
  induction tree using Expr.operations generalizing level with
  | operand tree h =>
    rw [h.attach]
    exact ⟨hlevel, h.wellFormed htree, hvalue⟩
  | operation left top right _ ih =>
    rw [Expr.attach]
    split
    · next hlt => exact ⟨htree.1, htree.2.1, ih htree.2.2 hlt⟩
    · next hge => exact ⟨hlevel, ⟨Nat.le_of_not_lt hge, htree.2⟩, hvalue⟩

theorem Expr.WellFormed.join {left right : Expr} {op : BinaryOp} (hleft : left.WellFormed 0)
    (hright : right.WellFormed 0) : (left.join op right).WellFormed 0 := by
  induction right using Expr.operations with
  | operand right h =>
    rw [h.join]
    exact hleft.attach (Nat.zero_le _) (h.wellFormed hright)
  | operation front next value ih _ =>
    rw [Expr.join]
    exact (ih (hright.2.1.mono (Nat.zero_le _))).attach (Nat.zero_le _) hright.2.2

theorem Expr.WellFormed.onLast {suffix : Expr → Expr} {value : Expr} {level : Nat}
    (hsuffix : ∀ last : Expr, last.WellFormed tightest → ∀ level, (suffix last).WellFormed level)
    (h : value.WellFormed level) : (value.onLast suffix).WellFormed level := by
  induction value using Expr.operations generalizing level with
  | operand value hoperand =>
    rw [hoperand.onLast]
    exact hsuffix value (hoperand.wellFormed h) level
  | operation left op right _ ih =>
    rw [Expr.onLast]
    exact ⟨h.1, h.2.1, ih h.2.2⟩

mutual

/-- **A regrouped tree is well formed.** -/
theorem Expr.IsSpelled.wellFormed_regroup : ∀ {value : Expr}, value.IsSpelled →
    value.regroup.WellFormed 0
  | .ident _, h => h
  | .literal _, h => h
  | .selector _ _, h =>
    Expr.WellFormed.onLast (fun _ hlast _ => ⟨hlast, h.2⟩)
      (Expr.IsSpelled.wellFormed_regroup h.1)
  | .call _ _, h =>
    Expr.WellFormed.onLast (fun _ hlast _ => ⟨hlast, areWellFormed_regroupAll h.2⟩)
      (Expr.IsSpelled.wellFormed_regroup h.1)
  | .binary _ _ _, h =>
    (Expr.IsSpelled.wellFormed_regroup h.1).join (Expr.IsSpelled.wellFormed_regroup h.2)

theorem areWellFormed_regroupAll : ∀ {values : List Expr}, AreSpelled values →
    AreWellFormed (regroupAll values)
  | [], _ => trivial
  | _ :: _, h => ⟨Expr.IsSpelled.wellFormed_regroup h.1, areWellFormed_regroupAll h.2⟩

end

/-! ### Trees that stay -/

theorem Expr.attach_eq {tree : Expr} {op : BinaryOp} (h : tree.WellFormed op.strength)
    (value : Expr) : tree.attach op value = .binary tree op value := by
  cases tree with
  | binary left top right => rw [Expr.attach, if_neg (Nat.not_lt_of_le h.1)]
  | ident | literal | selector | call => rfl

theorem Expr.join_eq {left right : Expr} {op : BinaryOp} (hleft : left.WellFormed op.strength)
    (hright : right.WellFormed (op.strength + 1)) : left.join op right = .binary left op right := by
  induction right using Expr.operations with
  | operand right h => rw [h.join, attach_eq hleft]
  | operation front next value ih _ =>
    -- The operator inside binds tighter, and so goes back to where it was.
    have hlt : op.strength < next.strength := hright.1
    rw [Expr.join, ih (hright.2.1.mono hlt), Expr.attach, if_pos hlt, attach_eq hright.2.1]

mutual

theorem Expr.WellFormed.regroup_eq_self : ∀ {value : Expr} {level : Nat},
    value.WellFormed level → value.regroup = value
  | .ident _, _, _ => rfl
  | .literal _, _, _ => rfl
  | .selector operand member, _, h => by
    rw [Expr.regroup, Expr.WellFormed.regroup_eq_self h.1, h.1.isOperand.onLast]
  | .call function arguments, _, h => by
    rw [Expr.regroup, Expr.WellFormed.regroup_eq_self h.1, h.1.isOperand.onLast,
      AreWellFormed.regroupAll_eq_self h.2]
  | .binary left op right, _, h => by
    rw [Expr.regroup, Expr.WellFormed.regroup_eq_self h.2.1,
      Expr.WellFormed.regroup_eq_self h.2.2, Expr.join_eq h.2.1 h.2.2]

theorem AreWellFormed.regroupAll_eq_self : ∀ {values : List Expr},
    AreWellFormed values → regroupAll values = values
  | [], _ => rfl
  | value :: rest, h => by
    rw [regroupAll, Expr.WellFormed.regroup_eq_self h.1, AreWellFormed.regroupAll_eq_self h.2]

end

/-- **The trees that stay as they are are the well-formed ones.** -/
theorem Expr.IsSpelled.regroup_eq_self_iff {value : Expr} (h : value.IsSpelled) :
    value.regroup = value ↔ value.WellFormed 0 :=
  ⟨fun heq => heq ▸ h.wellFormed_regroup, Expr.WellFormed.regroup_eq_self⟩

/-! ### Reading back -/

/-- **What is read back from the text of a tree is the regrouped tree.** -/
theorem Expr.IsSpelled.readText?_eq {value : Expr} (h : value.IsSpelled) :
    readText? (renderExpr value).toList = some (.expr value.regroup) := by
  have hindent : "".toList.all isSpace = true := rfl
  obtain ⟨text, htext, -, hread⟩ :=
    readText?_render (.expr value.regroup) h.wellFormed_regroup [] false hindent List.not_mem_nil
  rw [renderStmt, renderExpr_regroup] at htext
  rw [← Option.some.inj htext] at hread
  exact hread

/-- **What the text of an expression says.** It is read back as the regrouped tree, which is
the tree itself if and only if the tree is well formed; and two trees have one text if and
only if they are regrouped alike. Among well-formed trees the text tells which one it is. -/
theorem renderExpr_regroups {value other : Expr} (h : value.IsSpelled) (hother : other.IsSpelled) :
    readText? (renderExpr value).toList = some (.expr value.regroup) ∧
    (value.regroup = value ↔ value.WellFormed 0) ∧
    (renderExpr value = renderExpr other ↔ value.regroup = other.regroup) ∧
    (value.WellFormed 0 → other.WellFormed 0 → renderExpr value = renderExpr other →
      value = other) := by
  have hsame : renderExpr value = renderExpr other ↔ value.regroup = other.regroup := by
    constructor
    · intro htext
      have hread := h.readText?_eq
      rw [htext, hother.readText?_eq] at hread
      injection hread with hread
      injection hread with hread
      exact hread.symm
    · intro hregroup
      rw [← renderExpr_regroup value, hregroup, renderExpr_regroup]
  refine ⟨h.readText?_eq, h.regroup_eq_self_iff, hsame, fun hformed hformed' htext => ?_⟩
  calc value = value.regroup := hformed.regroup_eq_self.symm
    _ = other.regroup := hsame.mp htext
    _ = other := hformed'.regroup_eq_self

/-- A sum of three names, the last two of which are grouped. -/
def sumToTheRight : Expr :=
  .binary (.ident "a") .add (.binary (.ident "b") .add (.ident "c"))

/-- A sum of three names, the first two of which are grouped. -/
def sumToTheLeft : Expr :=
  .binary (.binary (.ident "a") .add (.ident "b")) .add (.ident "c")

theorem isSpelled_sums : sumToTheRight.IsSpelled ∧ sumToTheLeft.IsSpelled := by
  have hnames : IsIdentifier "a" ∧ IsIdentifier "b" ∧ IsIdentifier "c" := by
    unfold IsIdentifier
    decide +kernel
  exact ⟨⟨hnames.1, hnames.2⟩, ⟨hnames.1, hnames.2.1⟩, hnames.2.2⟩

theorem renderExpr_regroups_sums :
    sumToTheRight.IsSpelled ∧ sumToTheLeft.IsSpelled ∧
    readText? (renderExpr sumToTheRight).toList = some (.expr sumToTheLeft) ∧
    renderExpr sumToTheRight = renderExpr sumToTheLeft ∧ ¬ sumToTheRight.WellFormed 0 := by
  obtain ⟨hright, hleft⟩ := isSpelled_sums
  obtain ⟨hread, hstays, hsame, -⟩ := renderExpr_regroups hright hleft
  refine ⟨hright, hleft, hread, hsame.mpr rfl, fun hformed => ?_⟩
  have hself : sumToTheLeft = sumToTheRight := hstays.mpr hformed
  simp [sumToTheLeft, sumToTheRight] at hself

/-- **Not every tree can be told from its text.** -/
theorem renderExpr_not_injective :
    ¬ ∀ value other : Expr, value.IsSpelled → other.IsSpelled →
      renderExpr value = renderExpr other → value = other := by
  intro hinjective
  have heq := hinjective sumToTheRight sumToTheLeft isSpelled_sums.1 isSpelled_sums.2 rfl
  simp [sumToTheLeft, sumToTheRight] at heq

end EntryProbe.Go
