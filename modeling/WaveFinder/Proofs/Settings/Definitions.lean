import WaveFinder.Settings.EnvFile

/-!
# Proofs/Settings/Definitions — what `.env` adds to an environment

    lines ──definition?──▸ definitions ──addNew──▸ environment ++ what is new

The file is read against the environment, since a value may refer to variables, and changes it line
by line.  The two can be taken apart: `definitions` is what the lines say, in their order and with
the references replaced, and it is then added to the environment as a whole (`apply_eq_addNew`).  A
name has the value of the environment, else the first one of the file (`get?_addNew`).
-/

namespace WaveFinder

open Text

namespace Environment

variable {env defs : Environment} {name : String}

/-- The last value of a variable. -/
def last? (env : Environment) (name : String) : Option String :=
  get? env.reverse name

/-- Adds definitions, in their order, as far as they are not set. -/
def addNew (env defs : Environment) : Environment :=
  defs.foldl (fun env d => env.setNew d.1 d.2) env

theorem get?_cons (d : String × String) (env : Environment) (name : String) :
    get? (d :: env) name = if d.1 = name then some d.2 else env.get? name := by
  rw [get?, List.find?_cons]
  by_cases h : d.1 = name
  · rw [if_pos h, beq_iff_eq.2 h, Option.map_some]
  · rw [if_neg h, beq_eq_false_iff_ne.2 h]
    rfl

theorem get?_append (env env' : Environment) (name : String) :
    get? (env ++ env') name = (env.get? name).or (env'.get? name) := by
  induction env with
  | nil => rfl
  | cons d env ih =>
    rw [List.cons_append, get?_cons, get?_cons, ih]
    split <;> rfl

theorem isSome_get?_iff : (env.get? name).isSome ↔ name ∈ env.map Prod.fst := by
  simp [get?]

theorem last?_append_singleton (env : Environment) (d : String × String) (name : String) :
    last? (env ++ [d]) name = if d.1 = name then some d.2 else env.last? name := by
  rw [last?, List.reverse_append, List.reverse_singleton, List.singleton_append, get?_cons, last?]

theorem isSome_last?_iff : (env.last? name).isSome ↔ name ∈ env.map Prod.fst := by
  rw [last?, isSome_get?_iff, List.map_reverse, List.mem_reverse]

/-! ## Adding definitions -/

theorem addNew_cons (env : Environment) (d : String × String) (defs : Environment) :
    env.addNew (d :: defs) = (env.setNew d.1 d.2).addNew defs :=
  rfl

theorem get?_addNew (env defs : Environment) (name : String) :
    (env.addNew defs).get? name = (env.get? name).or (defs.get? name) := by
  induction defs generalizing env with
  | nil => exact Option.or_none.symm
  | cons d defs ih =>
    rw [addNew_cons, ih, setNew, get?_cons]
    split
    · next hset =>
      split
      · next hname =>
        obtain ⟨v, hv⟩ := Option.isSome_iff_exists.1 hset
        rw [← hname, hv]
        rfl
      · rfl
    · rw [get?_append, get?_cons, Option.or_assoc]
      split <;> rfl

/-- What is added stands last and is new, so the last value of a name is that of the environment
unless there is none. -/
theorem last?_addNew (env defs : Environment) (name : String) :
    (env.addNew defs).last? name = (env.last? name).or (defs.get? name) := by
  induction defs generalizing env with
  | nil => exact Option.or_none.symm
  | cons d defs ih =>
    rw [addNew_cons, ih, setNew, get?_cons]
    split
    · next hset =>
      split
      · next hname =>
        rw [isSome_get?_iff, ← isSome_last?_iff] at hset
        obtain ⟨v, hv⟩ := Option.isSome_iff_exists.1 hset
        rw [← hname, hv]
        rfl
      · rfl
    · next hnew =>
      rw [last?_append_singleton]
      split
      · next hname =>
        have hnone : env.last? name = none := by
          rw [isSome_get?_iff, ← isSome_last?_iff, Option.not_isSome_iff_eq_none, hname] at hnew
          exact hnew
        rw [hnone]
        rfl
      · rfl

end Environment

namespace EnvFile

/-! ## What the lines say -/

/-- What a line defines, if it defines anything; `none` if the line is malformed. -/
def definition? (env : Environment) (line : List Char) : Option (Option (String × String)) :=
  let line := trim isBlank line
  if line.isEmpty || line.head? == some '#' then
    some none
  else do
    let (name, rest) ← readDefined? line
    let rest := rest.dropWhile isBlank
    let value ← if rest.isEmpty || rest.head? == some '#' then some [] else readValue? env {} rest
    return some (String.ofList name, String.ofList value)

/-- What lines define up to the first that is malformed; each is read in the environment that those
before it leave. -/
def definitionsOfLines (env : Environment) : List (Option (List Char)) → Environment
  | [] => []
  | none :: _ => []
  | some line :: lines =>
    match definition? env line with
    | some (some d) => d :: definitionsOfLines (env.setNew d.1 d.2) lines
    | some none => definitionsOfLines env lines
    | none => []

/-- What a file defines. -/
def definitions (env : Environment) (content : String) : Environment :=
  let cs :=
    match content.toList with
    | '\ufeff' :: cs => cs
    | cs => cs
  definitionsOfLines env (logicalLines [] .outside (physicalLines cs))

theorem applyLine?_eq_map (env : Environment) (line : List Char) :
    applyLine? env line
      = (definition? env line).map fun d => d.elim env fun d => env.setNew d.1 d.2 := by
  simp only [applyLine?, definition?, apply_ite (Option.map _), Option.map_some, Option.elim_none]
  split
  · rfl
  · cases readDefined? (trim isBlank line) with
    | none => rfl
    | some r =>
      simp only [Option.bind_eq_bind, Option.bind_some]
      split
      · rfl
      · cases readValue? env {} (r.2.dropWhile isBlank) <;> rfl

theorem applyLines_eq_addNew (env : Environment) (lines : List (Option (List Char))) :
    applyLines env lines = env.addNew (definitionsOfLines env lines) := by
  induction lines generalizing env with
  | nil => rfl
  | cons line lines ih =>
    cases line with
    | none => rfl
    | some line =>
      rw [applyLines, applyLine?_eq_map, definitionsOfLines]
      match definition? env line with
      | none => rfl
      | some none => exact ih env
      | some (some d) => exact ih (env.setNew d.1 d.2)

/-- **A file adds to an environment what it defines.** -/
theorem apply_eq_addNew (env : Environment) (content : String) :
    apply env content = env.addNew (definitions env content) :=
  applyLines_eq_addNew env _

end EnvFile

end WaveFinder
