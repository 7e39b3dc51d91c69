/-
Module: LexLisp.Proofs.Variant
Purpose: Programs that differ in their names. A naming says which name of one program stands for which of another,
  at most one for each. Two expressions are variants under a naming if they have the same structure and use names
  that stand for one another; a procedure may open a naming of its own for its body. Special forms are compared
  by what they do and not by how they are written.
Main exports: Naming, Naming.InStep, Naming.Opens, Form, Form.of, Form.evaluate, evaluateForm_eq, Variant,
  FormVariant.checked, Keyword.Takes
-/
import LexLisp.Evaluator
import LexLisp.Proofs.Kinship
import Mathlib.Data.List.Forall2

namespace LexLisp

/-!
### Namings
-/

/-- Which names stand for which, one for one. Names that stand for none are out of sight. -/
structure Naming where
  stands : String → String → Prop
  one_to_one : ∀ {name name' other other'}, stands name name' → stands other other' →
    (name = other ↔ name' = other')

namespace Naming

/-- To bind both names at once disturbs no pair of a naming: it writes on both sides of the pair or on none. -/
def InStep (naming : Naming) (name name' : String) : Prop :=
  ∀ other other', naming.stands other other' → (other = name ↔ other' = name')

/-- The naming of a body inside another naming: the parameters are bound in step, and what is in sight in the body
    is a parameter or was in sight outside. -/
structure Opens (outer : Naming) (names names' : List String) (inner : Naming) : Prop where
  inStep : List.Forall₂ inner.InStep names names'
  inSight : ∀ name name', inner.stands name name' → name ∈ names ∨ outer.stands name name'

variable {naming : Naming}

theorem inStep_of_stands {name name' : String} (stands : naming.stands name name') :
    naming.InStep name name' :=
  fun _ _ other => naming.one_to_one other stands

theorem Opens.length_eq {inner : Naming} {names names' : List String}
    (opens : naming.Opens names names' inner) : names.length = names'.length :=
  opens.inStep.length_eq

end Naming

/-!
### What a special form does

A keyword with its operands is refused, or it is one of six forms. Both ways to write a procedure are one form.
-/

/-- A special form that has been checked. -/
inductive Form where
  | quoted (datum : Expr)
  | defined (name : String) (body : Expr)
  | assigned (name : String) (body : Expr)
  | sequence (first : Expr) (rest : List Expr)
  | conditional (condition consequent alternative : Expr)
  | procedure (names : List String) (body : Expr)
  | refused (fault : Fault)

namespace Form

/-- The form that a check lets through, or its refusal. -/
def checked {α : Type} (result : Except Fault α) (form : α → Form) : Form :=
  match result with
  | .ok names => form names
  | .error fault => .refused fault

/-- The form of a keyword with operands. -/
def of (keyword : Keyword) (operands : List Expr) : Form :=
  match keyword, operands with
  | .quote, [body] => .quoted body
  | .define, [target, body] => checked (bindingName .define target) fun name => .defined name body
  | .assign, [target, body] => checked (bindingName .assign target) fun name => .assigned name body
  | .sequence, first :: rest => .sequence first rest
  | .conditional, [condition, consequent, alternative] => .conditional condition consequent alternative
  | .lambda, [parameters, body] => checked (parametersOf parameters) fun names => .procedure names body
  | .lambdaOne, [parameter, body] =>
    checked (bindingName .lambdaOne parameter) fun name => .procedure [name] body
  | keyword, operands => .refused (.arity keyword.name keyword.arity operands.length)

/-- What a form does in a frame. -/
def evaluate (inner : Evaluator) (frame : FrameId) : Form → Eval Value
  | .quoted datum => pure (.ofDatum datum)
  | .defined name body => do
    let value ← inner body frame
    Eval.record (.define name value)
    Eval.define frame name value
    pure (.symbol name)
  | .assigned name body => do
    let value ← inner body frame
    Eval.record (.assign name value)
    Eval.assign frame name value
    pure (.symbol name)
  | .sequence first rest => evaluateSequence inner frame first rest
  | .conditional condition consequent alternative => do
    match ← inner condition frame with
    | .boolean true => inner consequent frame
    | .boolean false => inner alternative frame
    | other => Eval.raise (.type Keyword.conditional.name .condition other.described)
  | .procedure names body => Eval.close names body frame
  | .refused fault => Eval.raise fault

/-- A number of operands that the keyword does not take is refused. -/
theorem of_miscounted {keyword : Keyword} {operands : List Expr}
    (miscounted : keyword.arity.accepts operands.length = false) :
    of keyword operands = .refused (.arity keyword.name keyword.arity operands.length) := by
  unfold of
  split <;> first | rfl | simp [Keyword.arity, Arity.accepts] at miscounted

theorem evaluate_checked {α : Type} (inner : Evaluator) (frame : FrameId) (result : Except Fault α)
    (form : α → Form) :
    (checked result form).evaluate inner frame =
      Eval.ofExcept result >>= fun names => (form names).evaluate inner frame := by
  cases result <;> rfl

end Form

/-- A special form is evaluated as what it is. -/
theorem evaluateForm_eq (inner : Evaluator) (keyword : Keyword) (operands : List Expr) (frame : FrameId) :
    evaluateForm inner keyword operands frame = (Form.of keyword operands).evaluate inner frame := by
  unfold evaluateForm
  split <;> simp only [Form.of, Form.evaluate_checked] <;> rfl

/-!
### Variants

A program is divided into regions, each with a naming of its own: a procedure may open a region for its body that
differs from the region it is written in.
-/

variable {Region : Type}

mutual

/-- Expressions of the same structure whose names stand for one another. -/
inductive Variant (naming : Region → Naming) : Region → Expr → Expr → Prop where
  | number {region : Region} (value : Float) : Variant naming region (.number value) (.number value)
  | tag {region : Region} {name name' : String} {value : Bool} (isTag : truth? name = some value)
      (isTag' : truth? name' = some value) : Variant naming region (.symbol name) (.symbol name')
  | variable {region : Region} {name name' : String} (plain : truth? name = none)
      (plain' : truth? name' = none) (stands : (naming region).stands name name') :
      Variant naming region (.symbol name) (.symbol name')
  | empty {region : Region} : Variant naming region (.list []) (.list [])
  | form {region : Region} {head head' : Expr} {operands operands' : List Expr} {keyword keyword' : Keyword}
      (named : Keyword.ofHead? head = some keyword) (named' : Keyword.ofHead? head' = some keyword')
      (does : FormVariant naming region (.of keyword operands) (.of keyword' operands')) :
      Variant naming region (.list (head :: operands)) (.list (head' :: operands'))
  | application {region : Region} {head head' : Expr} {operands operands' : List Expr}
      (plain : Keyword.ofHead? head = none) (plain' : Keyword.ofHead? head' = none)
      (callee : Variant naming region head head') (rest : Variants naming region operands operands') :
      Variant naming region (.list (head :: operands)) (.list (head' :: operands'))

/-- Expressions that are variants one by one. -/
inductive Variants (naming : Region → Naming) : Region → List Expr → List Expr → Prop where
  | nil {region : Region} : Variants naming region [] []
  | cons {region : Region} {first first' : Expr} {rest rest' : List Expr}
      (here : Variant naming region first first') (later : Variants naming region rest rest') :
      Variants naming region (first :: rest) (first' :: rest')

/-- Forms that do the same but for names. Quoted data agrees in its shape, a definition binds in step, and an
    assignment changes a name that is in sight. Refusals are of one class. -/
inductive FormVariant (naming : Region → Naming) : Region → Form → Form → Prop where
  | quoted {region : Region} {datum datum' : Expr} (alike : datum.shape = datum'.shape) :
      FormVariant naming region (.quoted datum) (.quoted datum')
  | defined {region : Region} {name name' : String} {body body' : Expr}
      (inStep : (naming region).InStep name name') (value : Variant naming region body body') :
      FormVariant naming region (.defined name body) (.defined name' body')
  | assigned {region : Region} {name name' : String} {body body' : Expr}
      (stands : (naming region).stands name name') (value : Variant naming region body body') :
      FormVariant naming region (.assigned name body) (.assigned name' body')
  | sequence {region : Region} {first first' : Expr} {rest rest' : List Expr}
      (here : Variant naming region first first') (later : Variants naming region rest rest') :
      FormVariant naming region (.sequence first rest) (.sequence first' rest')
  | conditional {region : Region} {condition consequent alternative condition' consequent' alternative' : Expr}
      (test : Variant naming region condition condition') (onTrue : Variant naming region consequent consequent')
      (onFalse : Variant naming region alternative alternative') :
      FormVariant naming region (.conditional condition consequent alternative)
        (.conditional condition' consequent' alternative')
  | procedure {region inner : Region} {names names' : List String} {body body' : Expr}
      (opens : (naming region).Opens names names' (naming inner)) (result : Variant naming inner body body') :
      FormVariant naming region (.procedure names body) (.procedure names' body')
  | refused {region : Region} {fault fault' : Fault} (alike : fault.kind = fault'.kind) :
      FormVariant naming region (.refused fault) (.refused fault')

end

/-- Forms behind checks that agree, on names that the forms then use alike. -/
theorem FormVariant.checked {naming : Region → Naming} {region : Region} {α : Type} {good : α → α → Prop}
    {result result' : Except Fault α} {form form' : α → Form} (results : resemblance.Results good result result')
    (forms : ∀ names names', good names names' → FormVariant naming region (form names) (form' names')) :
    FormVariant naming region (.checked result form) (.checked result' form') := by
  rcases results.cases with ⟨names, names', rfl, rfl, good⟩ | ⟨fault, fault', rfl, rfl, faults⟩
  · exact forms names names' good
  · exact .refused faults.1

/-- The operands of a keyword: as many as it takes, or another number. -/
inductive Keyword.Takes : Keyword → List Expr → Prop where
  | quote (body : Expr) : Takes .quote [body]
  | define (target body : Expr) : Takes .define [target, body]
  | assign (target body : Expr) : Takes .assign [target, body]
  | sequence (first : Expr) (rest : List Expr) : Takes .sequence (first :: rest)
  | conditional (condition consequent alternative : Expr) :
      Takes .conditional [condition, consequent, alternative]
  | lambda (parameters body : Expr) : Takes .lambda [parameters, body]
  | lambdaOne (parameter body : Expr) : Takes .lambdaOne [parameter, body]

theorem Keyword.takes_of_accepts {keyword : Keyword} {operands : List Expr}
    (accepted : keyword.arity.accepts operands.length = true) : keyword.Takes operands := by
  cases keyword with
  | quote =>
      obtain ⟨body, rfl⟩ := List.length_eq_one_iff.mp (by simpa [Keyword.arity, Arity.accepts] using accepted)
      exact .quote body
  | sequence =>
      cases operands with
      | nil => simp [Keyword.arity, Arity.accepts] at accepted
      | cons first rest => exact .sequence first rest
  | conditional =>
      obtain ⟨condition, consequent, alternative, rfl⟩ :=
        List.length_eq_three.mp (by simpa [Keyword.arity, Arity.accepts] using accepted)
      exact .conditional condition consequent alternative
  | define | assign | lambda | lambdaOne =>
      obtain ⟨target, body, rfl⟩ :=
        List.length_eq_two.mp (by simpa [Keyword.arity, Arity.accepts] using accepted)
      constructor

end LexLisp
