/-
# Emission in passes

The types module can also be made by walking over the schemas several times. The first walk counts
the anonymous objects, each under its text with everything in place; then those that occur twice
get their names; the second walk writes the module, and skips the inside of an object that is
declared already. In both of them a third walk over each object finds out its text in place. All
walks look up references on their way, so each of them could fail.

A walk does what resolving the schema once does and then writing the shape: `typeText_eq` says so
for a schema, in every pass, whether it succeeds or fails. So no pass meets another error than the
first one, and the module is the same (`inPasses_eq_declarations`).

Key definitions: `Pass`, `Collected`, `typeText`, `memberTexts`, `Part`, `partsOf`, `inPasses`.
Key theorems: `typeText_eq`, `memberTexts_eq`, `draftsOf_eq_mapM`, `declareAll_eq`,
`inPasses_eq_declarations`.
-/
import Lexgen.Data.Steps
import Lexgen.Types.Module

namespace Lexgen.Types

open Lexgen.Data Lexgen.Lexicon Lexgen.Name Lexgen.TypeScript

/-! ### Walks over schemas -/

/-- What a walk is for. -/
inductive Pass where
  /-- Write every object in place. -/
  | inPlace
  /-- Note every object on the way. -/
  | count
  /-- Write the objects with names by name, and declare each of them once. -/
  | emit (n : Naming)

/-- What the walks have collected. -/
structure Collected where
  noted : List Occurrence := []
  /-- The texts of the objects that are declared already. -/
  declared : List String := []
  lifted : List Interface := []

/-- A walk collects something, or fails. -/
abbrev Walk (α : Type) := StateT Collected (Except Error) α

/-- The text of an object with everything in place, by a walk of its own. -/
def keyOf (members : Pass → String → Walk (List Member)) : Walk String :=
  fun c => (fun r => (inlineObject (requiredFirst r.1), c)) <$> (members .inPlace "").run {}

/-- The text of an object that would be called `candidate`; `members` walks over its properties, in
a pass and for an owner. -/
def objectText (pass : Pass) (candidate : String) (doc : Option String)
    (members : Pass → String → Walk (List Member)) : Walk String :=
  match pass with
  | .inPlace => do return inlineObject (requiredFirst (← members .inPlace candidate))
  | .count => do
    let key ← keyOf members
    modify fun c => { c with noted := c.noted ++ [⟨key, candidate⟩] }
    let _ ← members .count candidate
    return key
  | .emit n => do
    let key ← keyOf members
    match n.lookup key with
    | none => return inlineObject (requiredFirst (← members (.emit n) candidate))
    | some name =>
      if (← get).declared.contains key then return name
      else
        modify fun c => { c with declared := key :: c.declared }
        let inner ← members (.emit n) name
        modify fun c => { c with lifted := c.lifted ++ [⟨name, doc, requiredFirst inner⟩] }
        return name

mutual

/-- The text of the type of a schema that was met at a location, as the property `name` of the
object called `owner`. -/
def typeText (l : Lexicon) (pass : Pass) (owner name location : String) : Schema → Walk String
  | ⟨f, ps, it⟩ =>
    match f.dollarRef <|> f.ref with
    | some reference => liftM (resolveRef l reference location)
    | none =>
      match f.keyword with
      | some .array => arrayOf <$> itemText l pass owner (name ++ itemEnding) (location ++ "[]") it
      | some .union => unionText <$> (liftM (resolveRefs l location f.refs) : Walk (List String))
      | _ =>
        if (Schema.mk f ps it).isShape then
          objectText pass (owner ++ pascal name) (docOf f.description) fun pass owner =>
            memberTexts l pass owner location f.required ps
        else return leafType f

/-- The text of the type of the items of an array. -/
def itemText (l : Lexicon) (pass : Pass) (owner name location : String) :
    Option Schema → Walk String
  | none => return anyType
  | some s => typeText l pass owner name location s

/-- The members that the properties of the object called `owner` become, in order. -/
def memberTexts (l : Lexicon) (pass : Pass) (owner location : String) (required : List String) :
    List (String × Schema) → Walk (List Member)
  | [] => return []
  | (name, s) :: rest => do
    let type ← typeText l pass owner name (location ++ "." ++ name) s
    let others ← memberTexts l pass owner location required rest
    return (propertyOf required name s).member type :: others

end

/-! ### What a walk makes of a shape -/

namespace Pass

/-- The text of a shape in a pass. -/
def text : Pass → Shape → String
  | .emit n, shape => n.write shape
  | _, shape => shape.inline

/-- The members of the properties of an object in a pass. -/
def members : Pass → List (Property × Shape) → List Member
  | .emit n, properties => n.writeMembers properties
  | _, properties => Shape.inlineMembers properties

/-- What is collected after a shape. -/
def after (pass : Pass) (owner name : String) (shape : Shape) (c : Collected) : Collected :=
  match pass with
  | .inPlace => c
  | .count => { c with noted := c.noted ++ occurrences owner name shape }
  | .emit n => {
      noted := c.noted
      declared := (n.lift c.declared shape).2
      lifted := c.lifted ++ (n.lift c.declared shape).1.map n.interface }

/-- What is collected after the properties of an object. -/
def afterAll (pass : Pass) (owner : String) (properties : List (Property × Shape))
    (c : Collected) : Collected :=
  match pass with
  | .inPlace => c
  | .count => { c with noted := c.noted ++ propertyOccurrences owner properties }
  | .emit n => {
      noted := c.noted
      declared := (n.liftMembers c.declared properties).2
      lifted := c.lifted ++ (n.liftMembers c.declared properties).1.map n.interface }

end Pass

/-! ### Walking is resolving and then writing -/

/-- The walk that writes what a step gives and collects what is found in it. -/
def follow {α β : Type} (step : Except Error α) (write : α → β)
    (collect : α → Collected → Collected) : Walk β :=
  fun c => (fun a => (write a, collect a c)) <$> step

theorem follow_ok_bind {α β γ : Type} (a : α) (write : α → β)
    (collect : α → Collected → Collected) (next : β → Walk γ) (c : Collected) :
    (follow (.ok a) write collect >>= next) c = next (write a) (collect a c) :=
  rfl

theorem follow_error_bind {α β γ : Type} (e : Error) (write : α → β)
    (collect : α → Collected → Collected) (next : β → Walk γ) (c : Collected) :
    (follow (.error e) write collect >>= next) c = .error e :=
  rfl

/-- What is written for a step is carried over to what is built of it. -/
theorem map_follow {α α' β β' : Type} {step : Except Error α} {write : α → β}
    {collect : α → Collected → Collected} {change : β → β'} {build : α → α'} {write' : α' → β'}
    {collect' : α' → Collected → Collected} (hwrite : ∀ a, change (write a) = write' (build a))
    (hcollect : ∀ a, collect a = collect' (build a)) :
    change <$> follow step write collect = follow (build <$> step) write' collect' := by
  funext c
  cases step with
  | error e => rfl
  | ok a =>
    show Except.ok (change (write a), collect a c) = Except.ok (write' (build a), _)
    rw [hwrite, hcollect]

section Walks

variable {l : Lexicon} {pass : Pass} {owner name location : String}

theorem keyOf_eq (doc : Option String) {step : Except Error (List (Property × Shape))}
    {members : Pass → String → Walk (List Member)}
    (h : ∀ pass owner, members pass owner = follow step pass.members (pass.afterAll owner)) :
    keyOf members = follow step (fun ps => (Shape.object doc ps).inline) fun _ c => c := by
  funext c
  simp only [keyOf, h, StateT.run]
  cases step with
  | error e => rfl
  | ok properties => rfl

/-- The text of an object, when the walks over its properties are known. -/
theorem objectText_eq {step : Except Error (List (Property × Shape))} {doc : Option String}
    {members : Pass → String → Walk (List Member)}
    (h : ∀ pass owner, members pass owner = follow step pass.members (pass.afterAll owner)) :
    objectText pass (owner ++ pascal name) doc members =
      follow (Shape.object doc <$> step) pass.text (pass.after owner name) := by
  funext c
  cases step with
  | error e =>
    -- Whatever a pass does first fails, and with the error of the properties.
    cases pass <;> simp only [objectText, keyOf_eq doc h, h, follow_error_bind] <;> rfl
  | ok properties =>
    cases pass with
    | inPlace => simp only [objectText, h]; rfl
    | count =>
      have hnoted := List.append_assoc c.noted
        [⟨(Shape.object doc properties).inline, owner ++ pascal name⟩]
        (propertyOccurrences (owner ++ pascal name) properties)
      simp only [objectText, keyOf_eq doc h, h, follow_ok_bind]
      exact congrArg (fun noted => Except.ok ((Shape.object doc properties).inline,
        { c with noted })) hnoted
    | emit n =>
      have hread : ∀ c : Collected, follow (Shape.object doc <$> Except.ok properties)
          (Pass.emit n).text ((Pass.emit n).after owner name) c =
          .ok (n.write (.object doc properties), {
            noted := c.noted
            declared := (n.lift c.declared (.object doc properties)).2
            lifted := c.lifted ++
              (n.lift c.declared (.object doc properties)).1.map n.interface }) := fun c => rfl
      simp only [objectText, keyOf_eq doc h, h, follow_ok_bind, hread, Naming.write, Naming.lift]
      cases n.lookup (Shape.object doc properties).inline with
      | none => rfl
      | some given =>
        by_cases hdeclared : c.declared.contains (Shape.object doc properties).inline = true
        · simp only [hdeclared, if_true, List.map_nil, List.append_nil]
          show (if c.declared.contains (Shape.object doc properties).inline = true then
            pure given else _ : Walk String) c = _
          rw [if_pos hdeclared]
          rfl
        · show (if c.declared.contains (Shape.object doc properties).inline = true then
            pure given else _ : Walk String) c = _
          rw [if_neg hdeclared]
          simp only [hdeclared, Bool.false_eq_true, if_false, List.map_append,
            ← List.append_assoc]
          rfl

@[simp] theorem after_text (type : String) : pass.after owner name (.text type) = fun c => c := by
  funext c
  cases pass <;> simp [Pass.after, occurrences, Naming.lift]

theorem after_union (types : List String) : pass.after owner name (.union types) = fun c => c := by
  funext c
  cases pass <;> simp [Pass.after, occurrences, Naming.lift]

theorem after_array (item : Shape) : pass.after owner name (.array item) =
    pass.after owner (name ++ itemEnding) item := by
  funext c
  cases pass <;> simp only [Pass.after, occurrences, Naming.lift]

theorem text_array (item : Shape) : pass.text (.array item) = arrayOf (pass.text item) := by
  cases pass <;> simp only [Pass.text, Shape.inline, Naming.write]

@[simp] theorem text_text (type : String) : pass.text (.text type) = type := by
  cases pass <;> simp only [Pass.text, Shape.inline, Naming.write]

theorem text_union (types : List String) : pass.text (.union types) = unionText types := by
  cases pass <;> simp only [Pass.text, Shape.inline, Naming.write]

theorem members_cons (p : Property) (shape : Shape) (rest : List (Property × Shape)) :
    pass.members ((p, shape) :: rest) = p.member (pass.text shape) :: pass.members rest := by
  cases pass <;> simp only [Pass.members, Pass.text, Shape.inlineMembers, Naming.writeMembers]

theorem afterAll_nil : pass.afterAll owner [] = fun c => c := by
  funext c
  cases pass <;> simp [Pass.afterAll, propertyOccurrences, Naming.liftMembers]

theorem afterAll_cons (p : Property) (shape : Shape) (rest : List (Property × Shape))
    (c : Collected) : pass.afterAll owner ((p, shape) :: rest) c =
      pass.afterAll owner rest (pass.after owner p.name shape c) := by
  cases pass <;> simp only [Pass.after, Pass.afterAll, propertyOccurrences, Naming.liftMembers,
    List.append_assoc, List.map_append]

mutual

/-- **Walking over a schema is resolving it once** and then writing its shape, in every pass. -/
theorem typeText_eq : ∀ {pass : Pass} {owner name location : String} (s : Schema),
    typeText l pass owner name location s =
      follow (resolve l location s) pass.text (pass.after owner name)
  | pass, owner, name, location, ⟨f, ps, it⟩ => by
    unfold typeText
    split
    · next reference href =>
      simp only [resolve, href]
      funext c
      cases resolveRef l reference location with
      | error e => rfl
      | ok type =>
        show Except.ok (type, c) =
          .ok (pass.text (.text type), pass.after owner name (.text type) c)
        simp only [after_text, text_text]
    · next href =>
      split
      · next hkeyword =>
        simp only [resolve, href, hkeyword, itemText_eq it]
        exact map_follow (fun item => (text_array item).symm) fun item => (after_array item).symm
      · next hkeyword =>
        simp only [resolve, href, hkeyword]
        funext c
        cases resolveRefs l location f.refs with
        | error e => rfl
        | ok types =>
          show Except.ok (unionText types, c) =
            .ok (pass.text (.union types), pass.after owner name (.union types) c)
          rw [after_union, text_union]
      · next harray hunion =>
        split
        · next hshape =>
          simp only [resolve, href, hshape, if_true]
          exact objectText_eq fun pass owner => memberTexts_eq ps
        · next hshape =>
          simp only [resolve, href, hshape]
          funext c
          show Except.ok (leafType f, c) =
            .ok (pass.text (.text (leafType f)), pass.after owner name (.text (leafType f)) c)
          simp only [after_text, text_text]

theorem itemText_eq : ∀ {pass : Pass} {owner name location : String} (it : Option Schema),
    itemText l pass owner name location it =
      follow (resolveItems l location it) pass.text (pass.after owner name)
  | pass, owner, name, location, none => by
    funext c
    show Except.ok (anyType, c) =
      .ok (pass.text (.text anyType), pass.after owner name (.text anyType) c)
    simp only [after_text, text_text]
  | pass, owner, name, location, some s => by
    rw [itemText, resolveItems]
    exact typeText_eq s

theorem memberTexts_eq : ∀ {pass : Pass} {owner location : String} {required : List String}
    (ps : List (String × Schema)),
    memberTexts l pass owner location required ps =
      follow (resolveProperties l location required ps) pass.members (pass.afterAll owner)
  | pass, owner, location, required, [] => by
    funext c
    rw [memberTexts, resolveProperties]
    show Except.ok ([], c) = .ok (pass.members [], pass.afterAll owner [] c)
    rw [afterAll_nil]
    cases pass <;> simp [Pass.members, Shape.inlineMembers, Naming.writeMembers]
  | pass, owner, location, required, (name, s) :: rest => by
    rw [memberTexts, resolveProperties, typeText_eq s, memberTexts_eq rest]
    funext c
    cases resolve l (location ++ "." ++ name) s with
    | error e => rfl
    | ok shape =>
      cases resolveProperties l location required rest with
      | error e => rfl
      | ok others =>
        show Except.ok ((propertyOf required name s).member (pass.text shape) ::
            pass.members others, pass.afterAll owner others (pass.after owner name shape c)) =
          .ok (pass.members ((propertyOf required name s, shape) :: others),
            pass.afterAll owner ((propertyOf required name s, shape) :: others) c)
        rw [members_cons, afterAll_cons]
        rfl

end

end Walks

/-! ### What definitions ask for -/

/-- A declaration that a definition asks for. -/
inductive Part where
  /-- An interface of the properties of a schema, perhaps with a discriminant. -/
  | interface (name location : String) (doc discriminant : Option String) (s : Schema)
  /-- An alias of the type of a schema. -/
  | typed (name location : String) (doc : Option String) (s : Schema)
  /-- An alias whose type is known beforehand. -/
  | fixed (name : String) (doc : Option String) (type : String)

/-- The declaration of a schema under a name. -/
def schemaPart (name location : String) (doc : Option String) (s : Schema) : Part :=
  if s.isShape && s.reference?.isNone then .interface name location doc none s
  else .typed name location doc s

/-- The declaration of parameters, if there are any. -/
def parameterParts (l : Lexicon) (name : String) : Option Schema → List Part
  | none => []
  | some s =>
    if s.properties.isEmpty then []
    else [.interface (l.typeName name ++ "Params") (name ++ ".parameters") s.description none s]

/-- The declaration of a part of an operation, if the part has a schema. -/
def bodyParts (l : Lexicon) (name part location : String) (description : Option String) :
    Option Schema → List Part
  | none => []
  | some s =>
    [schemaPart (l.typeName name ++ part) (name ++ "." ++ location) (s.description <|> description)
      s]

/-- The declaration of the names of errors, if there are any. -/
def errorParts (l : Lexicon) (name : String) (errors : List NamedError) : List Part :=
  if errors.isEmpty then []
  else [.fixed (l.typeName name ++ "Error") none
    (Union.ofStrings (errors.map NamedError.name)).text]

/-- The declarations that a definition asks for, in order. -/
def partsOf (l : Lexicon) (name : String) : Definition → List Part
  | .record r =>
    [.interface (l.typeName name) name ((r.schema.bind (·.description)) <|> r.description)
      (some (qualifiedName l name)) (r.schema.getD Schema.blank)]
  | .query q =>
    parameterParts l name q.parameters ++
      bodyParts l name "Output" "output" (q.output.bind (·.description))
        (q.output.bind (·.schema)) ++
      errorParts l name q.errors
  | .procedure p =>
    parameterParts l name p.parameters ++
      bodyParts l name "Input" "input" (p.input.bind (·.description)) (p.input.bind (·.schema)) ++
      bodyParts l name "Output" "output" (p.output.bind (·.description))
        (p.output.bind (·.schema)) ++
      errorParts l name p.errors
  | .subscription s =>
    parameterParts l name s.parameters ++
      bodyParts l name "Message" "message" (s.message.bind (·.description))
        (s.message.bind (·.schema)) ++
      errorParts l name s.errors
  | .schema s =>
    if s.facets.keyword = some .token then
      [.fixed (l.typeName name) s.description (stringLiteral (qualifiedName l name))]
    else [schemaPart (l.typeName name) name s.description s]

namespace Part

/-- The draft of a part. -/
def draft (l : Lexicon) : Part → Except Error Draft
  | .interface name location doc discriminant s => interfaceOf l name location doc discriminant s
  | .typed name location doc s => Draft.alias name (docOf doc) <$> resolve l location s
  | .fixed name doc type => .ok (.alias name (docOf doc) (.text type))

/-- The declaration of a part in a pass. -/
def declare (l : Lexicon) (pass : Pass) : Part → Walk Declaration
  | .interface name location doc discriminant s =>
    (fun members => .interface ⟨name, docOf doc,
      discriminant.toList.map discriminantMember ++ requiredFirst members⟩) <$>
        memberTexts l pass name location s.facets.required s.properties
  | .typed name location doc s =>
    (fun type => .alias ⟨name, type, docOf doc⟩) <$> typeText l pass name "" location s
  | .fixed name doc type => return .alias ⟨name, type, docOf doc⟩

end Part

section Parts

variable {l : Lexicon} {name location : String}

theorem draft_schemaPart (doc : Option String) (s : Schema) :
    (schemaPart name location doc s).draft l = declareSchema l name location doc s := by
  unfold schemaPart declareSchema
  split <;> rfl

theorem mapM_parameterParts (parameters : Option Schema) :
    (parameterParts l name parameters).mapM (Part.draft l) = parameterDrafts l name parameters := by
  cases parameters with
  | none => rfl
  | some s =>
    simp only [parameterParts, parameterDrafts]
    split
    · rfl
    · simp [Part.draft]

theorem mapM_bodyParts (part : String) (description : Option String) (schema : Option Schema) :
    (bodyParts l name part location description schema).mapM (Part.draft l) =
      partDrafts l name part location description schema := by
  unfold bodyParts partDrafts
  cases schema with
  | none => rfl
  | some s => simp [draft_schemaPart]

theorem mapM_errorParts (errors : List NamedError) :
    (errorParts l name errors).mapM (Part.draft l) = pure (errorDrafts l name errors) := by
  unfold errorParts errorDrafts
  split <;> rfl

/-- **The block of a definition** are the drafts of its parts. -/
theorem draftsOf_eq_mapM (d : Definition) :
    draftsOf l name d = (partsOf l name d).mapM (Part.draft l) := by
  cases d with
  | record r => simp [draftsOf, partsOf, recordDraft, Part.draft]
  | query q =>
    simp [draftsOf, partsOf, outputDrafts, mapM_parameterParts, mapM_bodyParts, mapM_errorParts]
  | procedure p =>
    simp [draftsOf, partsOf, inputDrafts, outputDrafts, mapM_parameterParts, mapM_bodyParts,
      mapM_errorParts]
  | subscription s =>
    simp [draftsOf, partsOf, messageDrafts, mapM_parameterParts, mapM_bodyParts, mapM_errorParts]
  | schema s =>
    simp only [draftsOf, partsOf, schemaDraft]
    split
    · rfl
    · simp [draft_schemaPart]

theorem blocks_eq_mapM : ∀ defs : List (String × Definition),
    blocks l defs = (defs.flatMap fun d => partsOf l d.1 d.2).mapM (Part.draft l)
  | [] => rfl
  | (name, d) :: rest => by
    rw [blocks, draftsOf_eq_mapM, blocks_eq_mapM rest, List.flatMap_cons, List.mapM_append]

/-- The drafts of a lexicon are those of the parts of its definitions, the primary one's first. -/
theorem allDrafts_eq_mapM : allDrafts l = l.primary >>= fun e =>
    ((e :: l.supporting e.1).flatMap fun d => partsOf l d.1 d.2).mapM (Part.draft l) := by
  rw [allDrafts]
  cases l.primary with
  | error e => rfl
  | ok e => exact blocks_eq_mapM (e :: l.supporting e.1)

end Parts

/-! ### The module in passes -/

/-- The declarations of a lexicon, made in passes. -/
def inPasses (l : Lexicon) : Except Error (List Declaration) := do
  let e ← l.primary
  let parts := (e :: l.supporting e.1).flatMap fun d => partsOf l d.1 d.2
  let (counted, c) ← (parts.mapM (Part.declare l .count)).run {}
  match firstRepeated? (counted.map Declaration.name) with
  | some name => .error (.duplicateType l.id name)
  | none =>
    let n := nameAll (counted.map Declaration.name) (repeatedObjects c.noted)
    let (ds, c) ← (parts.mapM (Part.declare l (.emit n))).run {}
    let all := ds ++ c.lifted.map .interface
    if all.isEmpty then .error (.noTypes l.id) else .ok all

namespace Pass

/-- The declaration of a draft in a pass. -/
def write (pass : Pass) : Draft → Declaration
  | .interface name doc discriminant properties => .interface ⟨name, doc,
      discriminant.toList.map discriminantMember ++ requiredFirst (pass.members properties)⟩
  | .alias name doc shape => .alias ⟨name, pass.text shape, doc⟩

/-- What is collected after a draft. -/
def afterDraft (pass : Pass) : Draft → Collected → Collected
  | .interface name _ _ properties, c => pass.afterAll name properties c
  | .alias name _ shape, c => pass.after name "" shape c

/-- What is collected after several drafts. -/
def afterDrafts (pass : Pass) (ds : List Draft) (c : Collected) : Collected :=
  ds.foldl (fun c d => pass.afterDraft d c) c

theorem name_write (pass : Pass) (d : Draft) : (pass.write d).name = d.name :=
  match d with
  | .interface .. => rfl
  | .alias .. => rfl

theorem write_emit (n : Naming) (d : Draft) : (emit n).write d = d.write n :=
  match d with
  | .interface .. => rfl
  | .alias .. => rfl

theorem afterDrafts_count : ∀ (ds : List Draft) (c : Collected),
    count.afterDrafts ds c = { c with noted := c.noted ++ ds.flatMap Draft.occurrences }
  | [], c => by simp [afterDrafts]
  | d :: ds, c => by
    have hfirst : count.afterDraft d c = { c with noted := c.noted ++ d.occurrences } := by
      cases d <;> rfl
    rw [afterDrafts, List.foldl_cons, ← afterDrafts, afterDrafts_count ds, hfirst]
    simp

theorem lifted_afterDrafts_emit (n : Naming) : ∀ (ds : List Draft) (c : Collected),
    ((emit n).afterDrafts ds c).lifted =
      c.lifted ++ (Draft.liftAll n c.declared ds).map n.interface
  | [], c => by simp [afterDrafts, Draft.liftAll]
  | d :: ds, c => by
    have hfirst : (emit n).afterDraft d c = {
        noted := c.noted
        declared := (d.lift n c.declared).2
        lifted := c.lifted ++ (d.lift n c.declared).1.map n.interface } := by
      cases d <;> rfl
    rw [afterDrafts, List.foldl_cons, ← afterDrafts, lifted_afterDrafts_emit n ds, hfirst]
    simp [Draft.liftAll]

end Pass

section InPasses

variable {l : Lexicon}

theorem declare_eq (pass : Pass) (p : Part) :
    p.declare l pass = follow (p.draft l) pass.write pass.afterDraft := by
  cases p with
  | interface name location doc discriminant s =>
    rw [Part.declare, memberTexts_eq]
    exact map_follow (fun _ => rfl) fun _ => rfl
  | typed name location doc s =>
    rw [Part.declare, typeText_eq]
    exact map_follow (fun _ => rfl) fun _ => rfl
  | fixed name doc type =>
    funext c
    show Except.ok (Declaration.alias ⟨name, type, docOf doc⟩, c) =
      .ok (.alias ⟨name, pass.text (.text type), docOf doc⟩, pass.after name "" (.text type) c)
    simp only [after_text, text_text]

/-- **The declarations of a pass** are those of the drafts, and the pass fails if they do. -/
theorem mapM_declare_eq (pass : Pass) : ∀ parts : List Part,
    parts.mapM (Part.declare l pass) =
      follow (parts.mapM (Part.draft l)) (·.map pass.write) pass.afterDrafts
  | [] => rfl
  | p :: parts => by
    rw [List.mapM_cons, List.mapM_cons, declare_eq, mapM_declare_eq pass parts]
    funext c
    cases p.draft l with
    | error e => rfl
    | ok d =>
      cases parts.mapM (Part.draft l) with
      | error e => rfl
      | ok ds => rfl

/-- A pass that goes through shows that every pass does, whatever the names are and whatever has
been collected. -/
theorem exists_ok_of_mapM_declare_eq_ok {pass pass' : Pass} {parts : List Part} {c c' : Collected}
    {r : List Declaration × Collected} (h : parts.mapM (Part.declare l pass) c = .ok r) :
    ∃ r', parts.mapM (Part.declare l pass') c' = .ok r' := by
  rw [mapM_declare_eq, follow, map_eq_ok_iff] at h
  obtain ⟨drafts, hdrafts, -⟩ := h
  rw [mapM_declare_eq, follow, hdrafts]
  exact ⟨_, rfl⟩

/-- **The module made in passes** is the module, also if it fails. -/
theorem inPasses_eq_declarations : inPasses l = declarations l := by
  rw [inPasses, declarations, allDrafts_eq_mapM]
  cases l.primary with
  | error e => rfl
  | ok e =>
    simp only [mapM_declare_eq, bind, Except.bind, StateT.run, follow]
    cases ((e :: l.supporting e.1).flatMap fun d => partsOf l d.1 d.2).mapM (Part.draft l) with
    | error e => rfl
    | ok drafts =>
      have hnames : (drafts.map Pass.count.write).map Declaration.name = drafts.map Draft.name := by
        simp [Pass.name_write]
      have hnoted : (Pass.count.afterDrafts drafts {}).noted =
          drafts.flatMap Draft.occurrences := by
        simp [Pass.afterDrafts_count]
      have hemitted : drafts.map (Pass.emit (Naming.ofDrafts drafts)).write ++
          ((Pass.emit (Naming.ofDrafts drafts)).afterDrafts drafts {}).lifted.map
            Declaration.interface = declare drafts := by
        simp [Pass.lifted_afterDrafts_emit, Pass.write_emit, declare, Function.comp_def]
      have hnaming : nameAll (drafts.map Draft.name) (repeatedObjects
          (drafts.flatMap Draft.occurrences)) = Naming.ofDrafts drafts := rfl
      simp only [Functor.map, Except.map, hnames, hnoted, hnaming, hemitted]
      cases drafts with
      | nil => rfl
      | cons d ds => rfl

end InPasses

end Lexgen.Types
