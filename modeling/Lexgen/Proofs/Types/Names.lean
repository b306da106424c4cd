/-
# No name is declared twice

A module declares the names of its definitions, each with its endings, and behind them those of the
lifted interfaces (`names_declare`). The names of definitions are checked before anything is lifted,
and a lifted interface has a name that was free when it was given; so all names are different
(`names_declarations_nodup`).

Key theorems: `names_declare_nodup`, `names_declarations_nodup`.
-/
import Lexgen.Proofs.Types.Drafts
import Lexgen.Proofs.Types.Lifting

namespace Lexgen.Types

open Lexgen.Data Lexgen.Lexicon Lexgen.TypeScript

theorem names_declare (drafts : List Draft) :
    (declare drafts).map Declaration.name = drafts.map Draft.name ++
      (Draft.liftAll (Naming.ofDrafts drafts) [] drafts).map Lifted.name := by
  have hdrafts : Declaration.name ∘ Draft.write (Naming.ofDrafts drafts) = Draft.name :=
    funext fun d => d.name_write _
  rw [declare, List.map_append, List.map_map, List.map_map, hdrafts]
  rfl

/-- A lifted interface has no name of a definition. -/
theorem name_not_mem_of_mem_liftAll {drafts : List Draft} {o : Lifted}
    (ho : o ∈ Draft.liftAll (Naming.ofDrafts drafts) [] drafts) :
    o.name ∉ drafts.map Draft.name :=
  Naming.not_mem_of_lookup_ofDrafts (lookup_key_of_mem_liftAll ho)

theorem names_declare_nodup {drafts : List Draft} (h : (drafts.map Draft.name).Nodup) :
    ((declare drafts).map Declaration.name).Nodup := by
  rw [names_declare, List.nodup_append]
  refine ⟨h, names_liftAll_nodup (Naming.sound_ofDrafts drafts) drafts, ?_⟩
  intro name hname other hother heq
  obtain ⟨o, ho, rfl⟩ := List.mem_map.mp hother
  exact name_not_mem_of_mem_liftAll ho (heq ▸ hname)

/-- **No module declares a name twice.** The names are those of the definitions, each with its
endings, then those of the lifted interfaces, which were given in turn; and whatever names are
taken, the search for a free one ends at the candidate or at the candidate with the least number
from 2 up that makes it free. -/
theorem names_declarations_nodup {l : Lexicon} {ds : List Declaration}
    (h : declarations l = .ok ds) :
    (ds.map Declaration.name).Nodup ∧
    (∃ e drafts, l.primary? = some e ∧ allDrafts l = .ok drafts ∧
      ds.map Declaration.name = (e :: l.supporting e.1).flatMap (declaredNames l) ++
        (Draft.liftAll (Naming.ofDrafts drafts) [] drafts).map Lifted.name ∧
      NamedInTurn ((e :: l.supporting e.1).flatMap (declaredNames l))
        (repeatedObjects (drafts.flatMap Draft.occurrences)) (Naming.ofDrafts drafts) ∧
      ∀ o ∈ Draft.liftAll (Naming.ofDrafts drafts) [] drafts,
        (o.key, o.name) ∈ Naming.ofDrafts drafts) ∧
    ∀ taken candidate, FirstFree taken candidate (freshName taken candidate) ∧
      ∀ found, Search taken candidate candidate 2 found ↔ found = freshName taken candidate := by
  obtain ⟨drafts, hdrafts, hnodup, -, rfl⟩ := declarations_eq_ok_iff.mp h
  refine ⟨names_declare_nodup hnodup, ?_, fun taken candidate => ?_⟩
  · obtain ⟨e, hprimary, hnames⟩ := names_allDrafts hdrafts
    refine ⟨e, drafts, hprimary, hdrafts, ?_, ?_, fun o ho => ?_⟩
    · rw [names_declare, hnames]
    · rw [← hnames]
      exact namedInTurn_ofDrafts drafts
    · exact mem_of_lookup_eq_some (lookup_key_of_mem_liftAll ho)
  · have hfree := firstFree_freshName taken candidate
    refine ⟨hfree, fun found => ⟨fun hfound => ?_, fun heq => ?_⟩⟩
    · exact hfound.unique hfree.search
    · rw [heq]
      exact hfree.search

/-- An object that occurs twice, its first two candidate names being those of definitions. -/
def takenNames : Lexicon :=
  let place := objectSchema [("at", textSchema)]
  noteLexicon [("main", recordOf [("start", place), ("end", place)]),
    ("noteStart", .schema textSchema), ("noteStart2", .schema textSchema)]

theorem names_takenNames_nodup : ∃ ds, declarations takenNames = .ok ds ∧
    ds.map Declaration.name = ["Note", "NoteStart", "NoteStart2", "NoteStart3"] ∧
    (ds.map Declaration.name).Nodup := by
  have h : declarations takenNames = .ok [
      .interface ⟨"Note", none, [⟨"$type", "'com.example.note'", none, false⟩,
        ⟨"start", "NoteStart3", none, true⟩, ⟨"end", "NoteStart3", none, true⟩]⟩,
      .alias ⟨"NoteStart", "string", none⟩, .alias ⟨"NoteStart2", "string", none⟩,
      .interface ⟨"NoteStart3", none, [⟨"at", "string", none, true⟩]⟩] := by rfl
  exact ⟨_, h, rfl, (names_declarations_nodup h).1⟩

end Lexgen.Types
