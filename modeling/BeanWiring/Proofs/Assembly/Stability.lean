import BeanWiring.Proofs.Assembly.History
import BeanWiring.Proofs.Assembly.Selection

/-!
Assembling again: a definition that was made once is made from then on, with the same ids, and
nothing is drawn or given for it any more.
-/

namespace BeanWiring

/--
A definition that was made from documents is made from those with the ids given, and from what
they grow into.
-/
theorem MadeFrom.settle {documents reached : DocumentSet} {bean : String}
    {seed : Option Definition} {place : Place} {draft : DefinitionDraft (List Nat)}
    {definition : Definition} {low high : Nat} {given : Given Place}
    (made : MadeFrom documents reached bean seed place draft definition)
    (grown : Grown documents reached low high given) :
    MadeFrom reached reached bean seed place draft definition := by
  -- Ids do not change what a survey finds, so the draft is the one from before.
  obtain ⟨declaration, there, found⟩ := made.surveyed
  obtain ⟨marked, stands, same⟩ := grown.exists_survey there
  exact ⟨grown.finds made.finds, ⟨marked, stands, (same bean seed).trans found⟩, made.filled,
    made.declared⟩

/-- Documents in which each inline bean of a definition has an id make it with these ids. -/
theorem MadeFrom.again {documents : DocumentSet} {bean : String} {seed : Option Definition}
    {place : Place} {draft : DefinitionDraft (List Nat)} {definition : Definition}
    (made : MadeFrom documents documents bean seed place draft definition) (names : Names) :
    let assembly := assemble documents names bean seed
    assembly.outcome = .ok (some definition) ∧ assembly.documents = documents ∧
      assembly.names = names := by
  obtain ⟨declaration, there, drawn, ended⟩ := assemble_declared made.finds names seed
  obtain ⟨surveyed, stands, found⟩ := made.surveyed
  obtain rfl : declaration = surveyed := Option.some.inj (there.symm.trans stands)
  -- A bean without an id that is met is one of the definition, and these all have ids.
  have none : (surveyAt bean seed declaration).nameless = [] := by
    apply List.eq_nil_iff_forall_not_mem.2
    intro path met
    have among := (surveyAt_meets bean seed declaration).nameless draft found path met
    have nameless := ((mem_nameless_iff there found path).1 met).1
    exact nameless.not_declaredAt (made.declared path among)
  simp only [found, none] at ended drawn
  obtain ⟨same, outcome⟩ := ended
  have unchanged : (assemble documents names bean seed).documents = documents := same
  refine ⟨?_, unchanged, drawn⟩
  rw [outcome, unchanged, ← made.filled]

/-- A bean whose declaration is not sound has the same fault as long as only ids are given. -/
theorem Grown.fault_again {documents reached : DocumentSet} {low high : Nat}
    {given : Given Place} (grown : Grown documents reached low high given) {names : Names}
    {bean : String} {seed : Option Definition} {error : DefinitionError}
    (fault : (assemble documents names bean seed).outcome = .error error) (others : Names) :
    (assemble reached others bean seed).outcome = .error error := by
  cases search : documents.placeOf? bean with
  | none =>
    rw [assemble_undeclared search] at fault
    cases fault
  | some place =>
    have finds : documents.Finds bean place := search
    obtain ⟨declaration, there, _, ended⟩ := assemble_declared finds names seed
    obtain ⟨marked, stands, same⟩ := grown.exists_survey there
    obtain ⟨found, here, _, again⟩ := assemble_declared (grown.finds finds) others seed
    obtain rfl : marked = found := Option.some.inj (stands.symm.trans here)
    simp only [same bean seed] at again
    -- Both are told by the survey of the declaration, which is the same.
    cases survey : (surveyAt bean seed declaration).outcome with
    | error told =>
      simp only [survey] at ended again
      rw [again.1, ← ended.1, fault]
    | ok draft =>
      simp only [survey] at ended
      rw [ended.2] at fault
      cases fault

/-- Assembling again has the same outcome. -/
theorem assemble_again (documents : DocumentSet) (names others : Names) (bean : String)
    (seed : Option Definition) :
    (assemble (assemble documents names bean seed).documents others bean seed).outcome =
      (assemble documents names bean seed).outcome := by
  -- What the first assembly said holds in the documents that it leaves, fault or definition.
  obtain ⟨_, given, grown⟩ := assemble_grown documents names bean seed
  cases outcome : (assemble documents names bean seed).outcome with
  | error error => exact grown.fault_again outcome others
  | ok answer =>
    cases search : documents.placeOf? bean with
    | none =>
      rw [assemble_undeclared search] at outcome ⊢
      simp only [assemble_undeclared search]
      exact outcome
    | some place =>
      cases answer with
      | none =>
        -- A bean that is declared is never answered by nothing.
        obtain ⟨declaration, _, _, ended⟩ := assemble_declared search names seed
        split at ended
        · cases ended.1.symm.trans outcome
        · cases ended.2.symm.trans outcome
      | some definition =>
        rcases assemble_made outcome with ⟨undeclared, _⟩ | ⟨_, draft, made⟩
        · cases undeclared.symm.trans search
        · exact ((made.settle grown).again others).1

end BeanWiring
