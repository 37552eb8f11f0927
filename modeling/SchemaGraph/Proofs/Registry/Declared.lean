import Mathlib.Logic.Relation
import SchemaGraph.Proofs.Registry.Operations
/-!
# Declaring is a sequence of single declarations

`Declarations.Steps d d'` says that single declarations lead from `d` to `d'`. Whatever is declared
of a file is such a sequence (`steps_declareFile`), so a property that every single declaration
keeps is kept by the declaration of whole files; `Registry.Reachable` is the first one.
-/

namespace SchemaGraph

namespace Declarations

/-- `d.Step d'`: one declaration, rejected or not, leads from `d` to `d'`. -/
def Step (d d' : Declarations) : Prop :=
  ∃ site name kind rpc, d' = (d.declare site name kind rpc).2

/-- `d.Steps d'`: a sequence of declarations leads from `d` to `d'`. -/
def Steps : Declarations → Declarations → Prop :=
  Relation.ReflTransGen Step

theorem step_declare (d : Declarations) (site : DeclarationSite) (name : String)
    (kind : EntityKind) (rpc : Option RpcSignature) :
    Steps d (d.declare site name kind rpc).2 :=
  .single ⟨site, name, kind, rpc, rfl⟩

theorem steps_foldl {α : Type} {f : Declarations → α → Declarations}
    (h : ∀ d a, Steps d (f d a)) (xs : List α) (d : Declarations) : Steps d (xs.foldl f d) := by
  induction xs generalizing d with
  | nil => exact .refl
  | cons x xs ih => exact (h d x).trans (ih (f d x))

mutual

theorem steps_declareElement (site : DeclarationSite) (e : MessageElement) (d : Declarations) :
    Steps d (declareElement site e d) := by
  cases e with
  | message name elements line =>
    have hdeclare := step_declare d site name .message none
    rw [declareElement]
    split
    · rename_i q d' heq
      rw [heq] at hdeclare
      exact hdeclare.trans (steps_declareElements _ elements d')
    · rename_i d' heq
      rw [heq] at hdeclare
      exact hdeclare
  | enum decl => exact step_declare d site decl.name .enum none
  | field | map | oneof | reserved | extensions | option | comment | group | extend => exact .refl

theorem steps_declareElements (site : DeclarationSite) (es : List MessageElement)
    (d : Declarations) : Steps d (declareElements site es d) := by
  cases es with
  | nil => exact .refl
  | cons e es =>
    exact (steps_declareElement site e d).trans (steps_declareElements site es _)

end

theorem steps_declareService (site : DeclarationSite) (service : Service) (d : Declarations) :
    Steps d (declareService site service d) := by
  have hdeclare := step_declare d site service.name .service none
  unfold declareService
  split
  · rename_i d' heq
    rw [heq] at hdeclare
    exact hdeclare
  · rename_i q d' heq
    rw [heq] at hdeclare
    exact hdeclare.trans (steps_foldl (fun d rpc => step_declare ..) _ _)

theorem steps_declareFileElement (site : DeclarationSite) (d : Declarations) (e : FileElement) :
    Steps d (declareFileElement site d e) := by
  cases e with
  | message decl => exact steps_declareElement ..
  | enum decl => exact step_declare ..
  | service decl => exact steps_declareService ..
  | extend | option | comment => exact .refl

/-- A property that single declarations keep is kept by sequences of them. -/
theorem Steps.induction {P : Declarations → Prop}
    (hstep : ∀ d site name kind rpc, P d → P (d.declare site name kind rpc).2)
    {d d' : Declarations} (h : Steps d d') (hd : P d) : P d' := by
  induction h with
  | refl => exact hd
  | tail _ hlast ih =>
    obtain ⟨site, name, kind, rpc, rfl⟩ := hlast
    exact hstep _ site name kind rpc ih

/-- What one declaration does: it asks for the node identifier of its name, then it is rejected or
adds an entity under its qualified name. -/
theorem declare_cases (d : Declarations) (site : DeclarationSite) (name : String)
    (kind : EntityKind) (rpc : Option RpcSignature) :
    let q := Name.qualify site.scope name
    let ids := d.registry.nodeIdFor name q
    let entity : Entity := ⟨q, name, kind, ids.1, site.source, site.parent, none, rpc⟩
    ((d.registry.get? q).isSome ∧ (d.declare site name kind rpc).1 = none ∧
        (d.declare site name kind rpc).2.registry = ids.2) ∨
      (d.registry.get? q = none ∧ (d.declare site name kind rpc).1 = some q ∧
        ids.2.declare entity = .ok (d.declare site name kind rpc).2.registry) := by
  intro q ids entity
  unfold declare
  cases hget : d.registry.get? q with
  | some found =>
    -- The identifier has been given out even though the declaration is rejected.
    have hpresent : ids.2.get? entity.qualifiedName = some found := by
      rw [Registry.get?_nodeIdFor]
      exact hget
    have hrejected := Registry.declare_of_present hpresent
    left
    simp only [entity, ids, q] at hrejected
    refine ⟨rfl, ?_, ?_⟩ <;> simp only [hrejected, ids, q]
  | none =>
    have habsent : ids.2.get? entity.qualifiedName = none := by
      rw [Registry.get?_nodeIdFor]
      exact hget
    obtain ⟨r', hr'⟩ := Registry.declare_of_absent habsent
    right
    simp only [entity, ids, q] at hr'
    refine ⟨rfl, ?_, ?_⟩ <;> simp only [hr', entity, ids, q]

theorem reachable_declare {d : Declarations} (h : d.registry.Reachable) (site : DeclarationSite)
    (name : String) (kind : EntityKind) (rpc : Option RpcSignature) :
    (d.declare site name kind rpc).2.registry.Reachable := by
  rcases declare_cases d site name kind rpc with ⟨-, -, hreg⟩ | ⟨-, -, hok⟩
  · rw [hreg]
    exact h.nodeIdFor _ _
  · exact (h.nodeIdFor _ _).declare hok

end Declarations

namespace Registry

/-- What is declared of a file is a sequence of declarations. -/
theorem declareFile_steps (r : Registry) (source : String) (file : SchemaFile) :
    ∃ d : Declarations, Declarations.Steps ⟨r, []⟩ d ∧ (r.declareFile source file).2 = d.registry :=
  ⟨_, Declarations.steps_foldl (Declarations.steps_declareFileElement _) _ _, rfl⟩

theorem Reachable.declareFile {r : Registry} (h : r.Reachable) (source : String)
    (file : SchemaFile) : (r.declareFile source file).2.Reachable := by
  obtain ⟨d, hsteps, hreg⟩ := r.declareFile_steps source file
  rw [hreg]
  exact hsteps.induction (P := fun d => d.registry.Reachable)
    (fun d site name kind rpc hd => Declarations.reachable_declare hd site name kind rpc) h

/-- The registry after files have been declared one after the other. -/
def declareFiles (r : Registry) (files : List (String × SchemaFile)) : Registry :=
  files.foldl (fun r file => (r.declareFile file.1 file.2).2) r

/-- What single declarations keep of a registry is kept by the declaration of files. -/
theorem declareFiles_induction {P : Registry → Prop}
    (hstep : ∀ (d : Declarations) site name kind rpc, P d.registry →
      P (d.declare site name kind rpc).2.registry)
    (files : List (String × SchemaFile)) {r : Registry} (hr : P r) : P (r.declareFiles files) := by
  induction files generalizing r with
  | nil => exact hr
  | cons file files ih =>
    obtain ⟨d, hsteps, hreg⟩ := r.declareFile_steps file.1 file.2
    have hfile : P (r.declareFile file.1 file.2).2 := by
      rw [hreg]
      exact hsteps.induction (P := fun d => P d.registry) hstep hr
    exact ih hfile

end Registry
end SchemaGraph
