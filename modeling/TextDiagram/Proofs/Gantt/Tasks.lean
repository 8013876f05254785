import TextDiagram.Gantt.Reader
import TextDiagram.Proofs.Text.Cut
import TextDiagram.Proofs.Text.Lines
/-!
# The order of the parts of a task

Behind the colon of a task line stand flags and then other tokens, separated by commas. Blanks around a
token and empty places between commas mean nothing. The flags act as a set, and every other token goes
into the field of its kind, so if no two of them are of one kind their order means nothing either.

Main statements:

* `tokens_eq_iff`: which texts spell which tokens.
* `field_enter`: a token changes the field of its kind and no other.
* `says_ofSpec`: what a task line says, field by field.
* `order_independent`: two spellings of the same flags and tokens are one task.
-/

namespace TextDiagram

/-- The word for a flag. -/
def TaskFlag.word : TaskFlag → String
  | done => "done"
  | active => "active"
  | critical => "crit"

theorem TaskFlag.ofWord?_eq_some_iff {word : String} {flag : TaskFlag} :
    ofWord? word = some flag ↔ word = flag.word := by
  constructor
  · intro h
    unfold ofWord? at h
    -- Each word in turn; after the last one nothing is left.
    split_ifs at h with hword hword hword
    all_goals
      obtain rfl := Option.some.inj h
      exact hword
  · rintro rfl
    cases flag <;> decide

namespace GanttTask

/-! ## Tokens and what is written between them -/

/-- What may stand between two commas: blanks only, or a token with blanks around it. -/
inductive IsPiece : List Char → List (List Char) → Prop where
  | blank {t : List Char} (h : ∀ c ∈ t, Text.isBlank c = true) : IsPiece t []
  | token {before token after : List Char} (hbefore : ∀ c ∈ before, Text.isBlank c = true)
      (hafter : ∀ c ∈ after, Text.isBlank c = true) (hne : token ≠ [])
      (htrim : Text.trim token = token) (hcomma : ',' ∉ token) :
      IsPiece (before ++ (token ++ after)) [token]

/-- The text spells the tokens, separated by commas. -/
inductive Spells : List Char → List (List Char) → Prop where
  | last {t : List Char} {tokens : List (List Char)} (h : IsPiece t tokens) : Spells t tokens
  | comma {t rest : List Char} {tokens more : List (List Char)} (h : IsPiece t tokens)
      (hrest : Spells rest more) : Spells (t ++ ',' :: rest) (tokens ++ more)

/-- What stands between two commas gives a token or nothing. -/
theorem isPiece_iff {t : List Char} {ts : List (List Char)} :
    IsPiece t ts ↔ ',' ∉ t ∧ (Text.trimmed? t).toList = ts := by
  have hblank : ∀ {t : List Char}, (∀ c ∈ t, Text.isBlank c = true) → ',' ∉ t := by
    intro t h hmem
    exact absurd (h _ hmem) (by decide)
  constructor
  · intro h
    cases h with
    | blank h =>
      rw [Text.trimmed?_eq_none_iff.2 h]
      exact ⟨hblank h, rfl⟩
    | @token before token after hbefore hafter hne htrim hcomma =>
      rw [Text.trimmed?_eq_some_iff.2 ⟨⟨hne, htrim⟩, before, after, rfl, hbefore, hafter⟩]
      refine ⟨?_, rfl⟩
      rw [List.mem_append, List.mem_append, not_or, not_or]
      exact ⟨hblank hbefore, hcomma, hblank hafter⟩
  · rintro ⟨hcomma, rfl⟩
    cases hkept : Text.trimmed? t with
    | none => exact .blank (Text.trimmed?_eq_none_iff.1 hkept)
    | some token =>
      obtain ⟨⟨hne, htrim⟩, before, after, rfl, hbefore, hafter⟩ :=
        Text.trimmed?_eq_some_iff.1 hkept
      rw [List.mem_append, List.mem_append, not_or, not_or] at hcomma
      exact .token hbefore hafter hne htrim hcomma.2.1

theorem tokens_of_not_mem {t : List Char} (h : ',' ∉ t) :
    tokens t = (Text.trimmed? t).toList := by
  rw [tokens, Text.pieces_of_not_mem h, List.filterMap_cons, List.filterMap_nil]
  cases Text.trimmed? t <;> rfl

theorem tokens_append {t : List Char} (h : ',' ∉ t) (rest : List Char) :
    tokens (t ++ ',' :: rest) = (Text.trimmed? t).toList ++ tokens rest := by
  rw [tokens, Text.pieces_append h, List.filterMap_cons, ← tokens]
  cases Text.trimmed? t <;> rfl

theorem spells_tokens (spec : List Char) : Spells spec (tokens spec) := by
  -- From comma to comma.
  induction hlength : spec.length using Nat.strong_induction_on generalizing spec with
  | h n ih =>
    by_cases hcomma : ',' ∈ spec
    · obtain ⟨first, rest, rfl, hfirst⟩ := List.eq_append_cons_of_mem hcomma
      rw [tokens_append hfirst]
      refine .comma (isPiece_iff.2 ⟨hfirst, rfl⟩) (ih rest.length ?_ rest rfl)
      rw [← hlength, List.length_append, List.length_cons]
      omega
    · rw [tokens_of_not_mem hcomma]
      exact .last (isPiece_iff.2 ⟨hcomma, rfl⟩)

/-- The tokens of a text are those that it spells. -/
theorem tokens_eq_iff {spec : List Char} {ts : List (List Char)} :
    tokens spec = ts ↔ Spells spec ts := by
  constructor
  · rintro rfl
    exact spells_tokens spec
  · intro h
    induction h with
    | last h =>
      obtain ⟨hcomma, rfl⟩ := isPiece_iff.1 h
      exact tokens_of_not_mem hcomma
    | comma h _ ih =>
      obtain ⟨hcomma, rfl⟩ := isPiece_iff.1 h
      rw [tokens_append hcomma, ih]

instance (spec : List Char) (ts : List (List Char)) : Decidable (Spells spec ts) :=
  decidable_of_iff _ tokens_eq_iff

/-! ## Kinds of tokens -/

/-- What a token behind the flags is. -/
inductive TokenKind where
  | reference | duration | date | id
  deriving DecidableEq, Repr

/-- The kind of a token: a reference to another task, or else a duration in days, weeks or hours, or else
a date, or else an id. -/
def kind (token : List Char) : TokenKind :=
  if "after ".toList <+: token then .reference
  else if token.getLast? ∈ [some 'd', some 'w', some 'h'] then .duration
  else if '-' ∈ token ∧ 8 ≤ token.length then .date
  else .id

/-- What a token says: itself, or the name in a reference. -/
def value (token : List Char) : String :=
  String.ofList <|
    if kind token = .reference then Text.trim (token.drop "after ".toList.length) else token

/-- The field for a kind of tokens. -/
def field (task : GanttTask) : TokenKind → Option String
  | .reference => task.afterId
  | .duration => task.duration
  | .date => task.startDate
  | .id => task.id

theorem ext_field {a b : GanttTask} (hname : a.name = b.name) (hstatus : a.status = b.status)
    (hfield : ∀ k, a.field k = b.field k) : a = b := by
  obtain ⟨name, id, status, startDate, duration, afterId⟩ := a
  obtain rfl : name = b.name := hname
  obtain rfl : status = b.status := hstatus
  obtain rfl : afterId = b.afterId := hfield .reference
  obtain rfl : duration = b.duration := hfield .duration
  obtain rfl : startDate = b.startDate := hfield .date
  obtain rfl : id = b.id := hfield .id
  rfl

theorem enter_eq (task : GanttTask) (token : List Char) : task.enter token =
    match kind token with
    | .reference => { task with afterId := some (value token) }
    | .duration => { task with duration := some (value token) }
    | .date => { task with startDate := some (value token) }
    | .id => { task with id := some (value token) } := by
  unfold enter
  cases hafter : Text.after? "after " token with
  | some name =>
    obtain rfl : token = "after ".toList ++ name := Text.eq_append_of_isPrefixOf? hafter
    have hkind : kind ("after ".toList ++ name) = .reference := if_pos (List.prefix_append _ _)
    have hvalue : value ("after ".toList ++ name) = String.ofList (Text.trim name) := by
      rw [value, if_pos hkind, List.drop_left]
    rw [hkind, hvalue]
  | none =>
    have hprefix : ¬"after ".toList <+: token := Text.isPrefixOf?_eq_none_iff.1 hafter
    have hvalue : kind token ≠ .reference → value token = String.ofList token := by
      intro hkind
      rw [value, if_neg hkind]
    -- The two ways to ask for the last letter, and for the form of a date.
    have hletter : (token.getLast?.any fun c => c == 'd' || c == 'w' || c == 'h') = true ↔
        token.getLast? ∈ [some 'd', some 'w', some 'h'] := by
      cases token.getLast? <;> simp [or_assoc]
    have hdate : (token.contains '-' && decide (8 ≤ token.length)) = true ↔
        '-' ∈ token ∧ 8 ≤ token.length := by
      simp
    have hkind : kind token =
        if token.getLast? ∈ [some 'd', some 'w', some 'h'] then .duration
        else if '-' ∈ token ∧ 8 ≤ token.length then .date
        else .id := if_neg hprefix
    simp only [hletter, hdate]
    split_ifs at hkind ⊢
    all_goals rw [hkind, hvalue (by rw [hkind]; decide)]

/-- A token is entered into the field of its kind and leaves the others as they are. -/
theorem field_enter (task : GanttTask) (token : List Char) (k : TokenKind) :
    (task.enter token).field k = if kind token = k then some (value token) else task.field k := by
  rw [enter_eq]
  cases kind token <;> cases k <;> rfl

theorem name_and_status_enter (task : GanttTask) (token : List Char) :
    (task.enter token).name = task.name ∧ (task.enter token).status = task.status := by
  rw [enter_eq]
  cases kind token <;> exact ⟨rfl, rfl⟩

/-! ## What a task says -/

/-- The task has the name, the state of the flags, each token in the field of its kind, and no other
fields. -/
structure Says (name : String) (flags : List TaskFlag) (tokens : List (List Char))
    (task : GanttTask) : Prop where
  name : task.name = name
  status : task.status = TaskStatus.ofFlags flags
  entered : ∀ token ∈ tokens, task.field (kind token) = some (value token)
  unset : ∀ k, k ∉ tokens.map kind → task.field k = none

variable {name : String} {flags flags' : List TaskFlag} {ts ts' : List (List Char)}
  {task task' : GanttTask}

/-- There is one task that says this, whatever the order and the repetition. -/
theorem Says.unique (h : Says name flags ts task) (h' : Says name flags' ts' task')
    (hflags : ∀ flag, flag ∈ flags ↔ flag ∈ flags') (hts : ∀ token, token ∈ ts ↔ token ∈ ts') :
    task = task' := by
  refine ext_field (h.name.trans h'.name.symm) ?_ fun k => ?_
  · rw [h.status, h'.status]
    simp only [TaskStatus.ofFlags, hflags]
  · by_cases hk : k ∈ ts.map kind
    · obtain ⟨token, htoken, rfl⟩ := List.mem_map.1 hk
      rw [h.entered token htoken, h'.entered token ((hts token).1 htoken)]
    · have hk' : k ∉ ts'.map kind := by
        intro hmem
        obtain ⟨token, htoken, rfl⟩ := List.mem_map.1 hmem
        exact hk (List.mem_map_of_mem ((hts token).2 htoken))
      rw [h.unset k hk, h'.unset k hk']

/-- One more token of another kind is said besides. -/
theorem Says.concat (h : Says name flags ts task) {token : List Char}
    (hkind : kind token ∉ ts.map kind) : Says name flags (ts ++ [token]) (task.enter token) := by
  obtain ⟨hname, hstatus⟩ := name_and_status_enter task token
  refine ⟨hname.trans h.name, hstatus.trans h.status, ?_, ?_⟩
  · intro other hother
    rw [field_enter]
    obtain hearlier | hlast := List.mem_append.1 hother
    · have hne : kind token ≠ kind other := by
        intro heq
        rw [heq] at hkind
        exact hkind (List.mem_map_of_mem hearlier)
      rw [if_neg hne, h.entered other hearlier]
    · obtain rfl := List.mem_singleton.1 hlast
      exact if_pos rfl
  · intro k hk
    rw [List.map_append, List.mem_append, not_or, List.map_singleton, List.mem_singleton] at hk
    rw [field_enter, if_neg (Ne.symm hk.2), h.unset k hk.1]

/-- All tokens are said if no two of them are of one kind. -/
theorem Says.append (h : Says name flags ts task)
    (hkinds : ((ts ++ ts').map kind).Nodup) : Says name flags (ts ++ ts') (ts'.foldl enter task) := by
  induction ts' generalizing ts task with
  | nil =>
    rw [List.append_nil]
    exact h
  | cons token rest ih =>
    rw [List.append_cons] at hkinds ⊢
    refine ih (h.concat ?_) hkinds
    rw [List.map_append, List.map_append, List.map_singleton] at hkinds
    exact fun hmem => (List.nodup_append.1 (List.nodup_append.1 hkinds).1).2.2 _ hmem _
      (List.mem_singleton_self _) rfl

theorem flag?_eq_some_iff {token : List Char} {flag : TaskFlag} :
    flag? token = some flag ↔ token = flag.word.toList := by
  rw [flag?, TaskFlag.ofWord?_eq_some_iff]
  constructor
  · intro h
    rw [← h, String.toList_ofList]
  · rintro rfl
    rw [String.ofList_toList]

/-- The flags end where a token stands that is none. -/
theorem ofSpec_eq (name : String) {spec : List Char}
    (htokens : tokens spec = flags.map (·.word.toList) ++ ts)
    (hts : ∀ token ∈ ts, ∀ flag : TaskFlag, token ≠ flag.word.toList) :
    ofSpec name spec = ts.foldl enter ⟨name, none, TaskStatus.ofFlags flags, none, none, none⟩ := by
  have hword : ∀ flag : TaskFlag, flag? flag.word.toList = some flag :=
    fun flag => flag?_eq_some_iff.2 rfl
  have hflags : ∀ token ∈ flags.map (·.word.toList), (flag? token).isSome = true := by
    intro token hmem
    obtain ⟨flag, -, rfl⟩ := List.mem_map.1 hmem
    rw [hword]
    rfl
  have hstop : ts.takeWhile (fun token => (flag? token).isSome) = [] ∧
      ts.dropWhile (fun token => (flag? token).isSome) = ts := by
    cases ts with
    | nil => exact ⟨rfl, rfl⟩
    | cons token rest =>
      have hnone : flag? token = none := by
        rw [Option.eq_none_iff_forall_ne_some]
        intro flag hflag
        exact hts token List.mem_cons_self flag (flag?_eq_some_iff.1 hflag)
      constructor
      · rw [List.takeWhile_cons_of_neg (by simp [hnone])]
      · rw [List.dropWhile_cons_of_neg (by simp [hnone])]
  have hread : (flags.map (·.word.toList)).filterMap flag? = flags := by
    rw [List.filterMap_map]
    exact (List.filterMap_congr fun flag _ => hword flag).trans List.filterMap_some
  unfold ofSpec
  simp only
  rw [htokens, List.takeWhile_append_of_pos hflags, List.dropWhile_append_of_pos hflags, hstop.1,
    hstop.2, List.append_nil, hread]

/-- What a task line says: its flags together, and each of its other tokens in the field of its kind. -/
theorem says_ofSpec (name : String) {spec : List Char}
    (hspec : Spells spec (flags.map (·.word.toList) ++ ts))
    (hts : ∀ token ∈ ts, ∀ flag : TaskFlag, token ≠ flag.word.toList)
    (hkinds : (ts.map kind).Nodup) : Says name flags ts (ofSpec name spec) := by
  rw [ofSpec_eq name (tokens_eq_iff.2 hspec) hts]
  have hnothing : Says name flags [] ⟨name, none, TaskStatus.ofFlags flags, none, none, none⟩ := by
    refine ⟨rfl, rfl, nofun, fun k _ => ?_⟩
    cases k <;> rfl
  exact hnothing.append hkinds

/-- The order of the tokens behind the flags means nothing if they are of different kinds, and nor do the
order and the repetition of the flags, empty places between commas and blanks around tokens. Each token
is found as it was written in the field of its kind, and the other fields are empty. -/
theorem order_independent (name : String) {spec spec' : List Char}
    (hspec : Spells spec (flags.map (·.word.toList) ++ ts))
    (hspec' : Spells spec' (flags'.map (·.word.toList) ++ ts'))
    (hflags : ∀ flag, flag ∈ flags ↔ flag ∈ flags') (hperm : ts.Perm ts')
    (hts : ∀ token ∈ ts, ∀ flag : TaskFlag, token ≠ flag.word.toList)
    (hkinds : (ts.map kind).Nodup) :
    ofSpec name spec = ofSpec name spec' ∧ Says name flags ts (ofSpec name spec) := by
  have htask := says_ofSpec name hspec hts hkinds
  refine ⟨htask.unique (says_ofSpec name hspec' ?_ ?_) hflags fun _ => hperm.mem_iff, htask⟩
  · intro token htoken
    exact hts token (hperm.mem_iff.2 htoken)
  · exact ((hperm.map kind).nodup_iff).1 hkinds

/-- Tokens that look like another kind: a reference that ends like a duration, a duration with the signs
of a date, and an id with a sign. -/
theorem order_independent_of_look_alikes :
    Spells "done,crit,after end,a-b-c-3d,2024-01-01,t-1".toList
        ([TaskFlag.done, .critical].map (·.word.toList) ++
          ["after end", "a-b-c-3d", "2024-01-01", "t-1"].map String.toList) ∧
      Spells " crit ,, done, crit,t-1 , 2024-01-01,\t,a-b-c-3d,after end ,".toList
        ([TaskFlag.critical, .done, .critical].map (·.word.toList) ++
          ["t-1", "2024-01-01", "a-b-c-3d", "after end"].map String.toList) ∧
      ["after end", "a-b-c-3d", "2024-01-01", "t-1"].map (fun token => kind token.toList) =
        [.reference, .duration, .date, .id] ∧
      ofSpec "Build" "done,crit,after end,a-b-c-3d,2024-01-01,t-1".toList =
        ofSpec "Build" " crit ,, done, crit,t-1 , 2024-01-01,\t,a-b-c-3d,after end ,".toList ∧
      Says "Build" [.done, .critical]
        (["after end", "a-b-c-3d", "2024-01-01", "t-1"].map String.toList)
        (ofSpec "Build" "done,crit,after end,a-b-c-3d,2024-01-01,t-1".toList) := by
  have hspec : Spells "done,crit,after end,a-b-c-3d,2024-01-01,t-1".toList
      ([TaskFlag.done, .critical].map (·.word.toList) ++
        ["after end", "a-b-c-3d", "2024-01-01", "t-1"].map String.toList) := by decide +kernel
  have hspec' : Spells " crit ,, done, crit,t-1 , 2024-01-01,\t,a-b-c-3d,after end ,".toList
      ([TaskFlag.critical, .done, .critical].map (·.word.toList) ++
        ["t-1", "2024-01-01", "a-b-c-3d", "after end"].map String.toList) := by decide +kernel
  have hflags : ∀ flag : TaskFlag, flag ∈ [TaskFlag.done, .critical] ↔
      flag ∈ [TaskFlag.critical, .done, .critical] := by
    intro flag
    cases flag <;> decide
  have hts : ∀ token ∈ ["after end", "a-b-c-3d", "2024-01-01", "t-1"].map String.toList,
      ∀ flag : TaskFlag, token ≠ flag.word.toList := by
    intro token htoken flag
    cases flag <;> revert token <;> decide +kernel
  refine ⟨hspec, hspec', by decide +kernel, ?_⟩
  exact order_independent "Build" hspec hspec' hflags (by decide +kernel) hts (by decide +kernel)

end GanttTask

end TextDiagram
