/-
# Making a plan and carrying it out

A command that succeeds made a plan on the tree that it found and delivered the outputs of the plan
one after the other, each on the tree that the one before left. A preview leaves the tree as it was.

Key theorems: `yields_generate_iff`, `yields_carryOut_iff`, `yields_deliverAll_cons_iff`.
-/
import Lexgen.Command.Program
import Lexgen.Proofs.Project.Store

namespace Lexgen.Command

open Lexgen.Files Lexgen.Project

variable {α : Type} {t t' : Tree}

/-! ### Stages -/

theorem yields_projectStep_iff {stage : Stage} {step : ExceptT Problem (StateM Tree) α} {a : α} :
    Yields t (projectStep stage step).run (.ok a) t' ↔ Yields t step.run (.ok a) t' := by
  have hrun : (projectStep stage step).run =
      (·.mapError fun p => ⟨stage, .project p⟩) <$> step.run := rfl
  rw [hrun, yields_map_iff]
  constructor
  · rintro ⟨e | b, hstep, h⟩
    · cases h
    · cases h
      exact hstep
  · exact fun h => ⟨_, h, rfl⟩

theorem yields_lexiconStep_iff {stage : Stage} {step : Except Lexicon.Error α} {a : α} :
    Yields t (lexiconStep (m := StateM Tree) stage step).run (.ok a) t' ↔
      step = .ok a ∧ t' = t := by
  have hrun : (lexiconStep (m := StateM Tree) stage step).run =
      pure (step.mapError fun e => ⟨stage, .lexicon e⟩) := rfl
  rw [hrun]
  cases step <;> simp [Except.mapError]

/-! ### Delivering -/

/-- Every output of a plan, stored or shown. -/
abbrev deliverAll (dryRun : Bool) (outputs : List Output) :
    ExceptT Problem (StateM Tree) (List (String × Outcome)) :=
  outputs.mapM (Output.deliver dryRun)

theorem yields_deliverAll_nil_iff {dryRun : Bool} {files : List (String × Outcome)} :
    Yields t (deliverAll dryRun []).run (.ok files) t' ↔ [] = files ∧ t' = t := by
  simp [deliverAll]

theorem yields_deliverAll_cons_iff {dryRun : Bool} {o : Output} {outputs : List Output}
    {files : List (String × Outcome)} :
    Yields t (deliverAll dryRun (o :: outputs)).run (.ok files) t' ↔
      ∃ file t₁, Yields t (o.deliver dryRun).run (.ok file) t₁ ∧
        ∃ rest, Yields t₁ (deliverAll dryRun outputs).run (.ok rest) t' ∧ file :: rest = files := by
  rw [deliverAll, List.mapM_cons, yields_run_bind_iff]
  simp only [yields_run_bind_pure_iff]

theorem yields_preview_iff {o : Output} {file : String × Outcome} :
    Yields t (o.deliver true).run (.ok file) t' ↔ (o.path, .preview o.text) = file ∧ t' = t := by
  simp [Output.deliver]

theorem yields_deliver_iff {o : Output} {file : String × Outcome} :
    Yields t (o.deliver false).run (.ok file) t' ↔
      ∃ how, Yields t (store o.path o.text).run (.ok how) t' ∧ (o.path, .written how) = file := by
  rw [Output.deliver, if_neg nofun, yields_run_bind_pure_iff]

theorem yields_carryOut_iff {dryRun : Bool} {p : Plan} {report : Report} :
    Yields t (p.carryOut dryRun).run (.ok report) t' ↔
      ∃ files, Yields t (deliverAll dryRun p.outputs).run (.ok files) t' ∧
        ⟨p.source, p.collections, p.warnings, files⟩ = report := by
  rw [Plan.carryOut, yields_run_bind_pure_iff]
  simp only [yields_projectStep_iff]

/-- A plan with two outputs is carried out if the first can be stored, and then the second. -/
theorem exists_carryOut_pair_iff {p : Plan} {path₁ text₁ path₂ text₂ : String}
    (houtputs : p.outputs = [⟨path₁, text₁⟩, ⟨path₂, text₂⟩]) :
    (∃ report, Yields t (p.carryOut false).run (.ok report) t' ∧ report.source = p.source) ↔
      ∃ how₁ t₁, Yields t (store path₁ text₁).run (.ok how₁) t₁ ∧
        ∃ how₂, Yields t₁ (store path₂ text₂).run (.ok how₂) t' := by
  simp only [yields_carryOut_iff, houtputs, yields_deliverAll_cons_iff, yields_deliverAll_nil_iff,
    yields_deliver_iff]
  constructor
  · rintro ⟨report, ⟨files, ⟨file₁, t₁, ⟨how₁, hfirst, rfl⟩, rest, hrest, rfl⟩, rfl⟩, -⟩
    obtain ⟨file₂, t₂, ⟨how₂, hsecond, rfl⟩, none, ⟨rfl, rfl⟩, rfl⟩ := hrest
    exact ⟨how₁, t₁, hfirst, how₂, hsecond⟩
  · rintro ⟨how₁, t₁, hfirst, how₂, hsecond⟩
    let files := [(path₁, Outcome.written how₁), (path₂, .written how₂)]
    exact ⟨⟨p.source, p.collections, p.warnings, files⟩, ⟨files, ⟨_, t₁, ⟨how₁, hfirst, rfl⟩, _,
      ⟨_, t', ⟨how₂, hsecond, rfl⟩, [], ⟨rfl, rfl⟩, rfl⟩, rfl⟩, rfl⟩, rfl⟩

/-- **A command that succeeds** made a plan and carried it out. -/
theorem yields_generate_iff {dryRun : Bool} {plan : ExceptT Failure (StateM Tree) Plan}
    {report : Report} :
    Yields t (generate dryRun plan) (.ok report) t' ↔
      ∃ p t₁, Yields t plan.run (.ok p) t₁ ∧ Yields t₁ (p.carryOut dryRun).run (.ok report) t' :=
  yields_run_bind_iff

end Lexgen.Command
