import Mathlib.Data.List.Induction
import TextDiagram.Keyed
/-!
# Mentions of entities

A diagram is read from a history of mentions. A mention may declare an entity with its whole record, or
it may need the entity and say nothing more about it. What is known after a history is said here from the
history as a whole: entities stand in the order of their first mention, each with the last record that
was declared for it, or with an implicit one if none was.

Main statements:

* `Keyed.put_map`, `Keyed.ensure_map`: what is put into a list that a function of the keys makes up.
* `Mention.entities_concat`: what one more mention does to the entities.
* `Mention.foldl_note`: taking note of the mentions one by one makes up the entities.
* `Mention.entities_of_steps`: so does a run in which every step takes note of its mentions.
-/

namespace TextDiagram

/-! ## Names in the order of first occurrence -/

/-- One more name at the end, unless it is there. -/
theorem eraseDups_concat (names : List String) (name : String) : (names ++ [name]).eraseDups =
    if name ∈ names.eraseDups then names.eraseDups else names.eraseDups ++ [name] := by
  rw [List.eraseDups_append]
  by_cases hmem : name ∈ names
  · simp [List.removeAll, hmem]
  · simp [List.removeAll, hmem, List.eraseDups_cons]

/-- Erasing repetitions leaves none. -/
theorem nodup_eraseDups (names : List String) : names.eraseDups.Nodup := by
  induction names using List.reverseRecOn with
  | nil => exact List.nodup_nil
  | append_singleton names name ih =>
    rw [eraseDups_concat]
    split
    · exact ih
    · -- The name is added only if it is not there.
      next hnew =>
      rw [List.nodup_append]
      refine ⟨ih, List.pairwise_singleton _ _, fun other hother last hlast => ?_⟩
      obtain rfl := List.mem_singleton.1 hlast
      rintro rfl
      exact hnew hother

/-! ## Lists made up from their keys -/

namespace Keyed

variable {β : Type} [Keyed β]

/-- The keys of entries that are made from their keys. -/
theorem keys_map {f : String → β} (hkey : ∀ k, key (f k) = k) (ks : List String) :
    keys (ks.map f) = ks := by
  simp [keys, Function.comp_def, hkey]

/-- Putting an entry among such entries. -/
theorem put_map {f g : String → β} {entry : β} (hkey : ∀ k, key (f k) = k)
    (hself : g (key entry) = entry) (hother : ∀ k, k ≠ key entry → g k = f k) {ks : List String}
    (hnodup : ks.Nodup) :
    put entry (ks.map f) = (if key entry ∈ ks then ks else ks ++ [key entry]).map g := by
  have hsame : ∀ ks : List String, key entry ∉ ks → ks.map f = ks.map g := by
    intro ks hnew
    refine List.map_congr_left fun k hk => (hother k ?_).symm
    rintro rfl
    exact hnew hk
  -- Behind the entry that is replaced its key does not occur again, as the keys are distinct.
  induction ks with
  | nil => simp [put, hself]
  | cons k ks ih =>
    rw [List.nodup_cons] at hnodup
    rw [List.map_cons, put, hkey]
    by_cases hk : k = key entry
    · subst hk
      rw [if_pos rfl, if_pos List.mem_cons_self, List.map_cons, hself, hsame ks hnodup.1]
    · have hmem : key entry ∈ k :: ks ↔ key entry ∈ ks := by
        rw [List.mem_cons, or_iff_right (Ne.symm hk)]
      rw [if_neg hk, ih hnodup.2, ← hother k hk]
      simp only [hmem]
      split
      · rfl
      · rfl

/-- Ensuring an entry among such entries. -/
theorem ensure_map {f : String → β} (hkey : ∀ k, key (f k) = k) (entry : β) {ks : List String}
    (hnew : key entry ∉ ks → f (key entry) = entry) :
    ensure entry (ks.map f) = (if key entry ∈ ks then ks else ks ++ [key entry]).map f := by
  simp only [ensure, has_iff_mem_keys, keys_map hkey]
  split
  · rfl
  · next hmem => rw [List.map_append, List.map_singleton, hnew hmem]

/-- Two entries that are needed make up a list of two, or of one if they are the same. -/
theorem ensure_ensure_nil {f : String → β} (hkey : ∀ k, key (f k) = k) (a b : String) :
    ensure (f b) (ensure (f a) []) = [a, b].eraseDups.map f := by
  have hfirst : ensure (f a) [] = [a].map f := rfl
  have hnames : [a, b].eraseDups = if b ∈ [a] then [a] else [a] ++ [b] := eraseDups_concat [a] b
  rw [hfirst, ensure_map hkey (f b) (by simp [hkey]), hkey, hnames]

/-- The first entry is modified if it has the key. -/
theorem modify_cons (k : String) (f : β → β) (e : β) (rest : List β) :
    modify k f (e :: rest) = (if key e = k then f e else e) :: modify k f rest := rfl

/-- Nothing is modified at a key that is not there. -/
theorem modify_of_not_mem_keys {k : String} {entries : List β} (h : k ∉ keys entries) (f : β → β) :
    modify k f entries = entries := by
  induction entries with
  | nil => rfl
  | cons e rest ih =>
    rw [keys_cons, List.mem_cons, not_or] at h
    rw [modify_cons, if_neg (Ne.symm h.1), ih h.2]

/-- The entry with a key is changed into the one that is put in its place. -/
theorem modify_eq_put {f : β → β} {entry : β} {entries : List β} (hnodup : (keys entries).Nodup)
    (hmem : key entry ∈ keys entries) (hsame : ∀ e ∈ entries, key e = key entry → f e = entry) :
    modify (key entry) f entries = put entry entries := by
  induction entries with
  | nil => cases hmem
  | cons e rest ih =>
    rw [keys_cons, List.nodup_cons] at hnodup
    rw [modify_cons, put]
    by_cases he : key e = key entry
    · rw [if_pos he, if_pos he, hsame e List.mem_cons_self he,
        modify_of_not_mem_keys (he ▸ hnodup.1)]
    · rw [keys_cons, List.mem_cons, or_iff_right (Ne.symm he)] at hmem
      rw [if_neg he, if_neg he, ih hnodup.2 hmem fun e he => hsame e (List.mem_cons_of_mem _ he)]

/-- An entry that is added and then changed is put in its changed form, if the change makes the same of
what stands there already. -/
theorem modify_ensure (f : β → β) (entry : β) (hkey : key (f entry) = key entry)
    {entries : List β} (hnodup : (keys entries).Nodup)
    (hsame : ∀ e ∈ entries, key e = key entry → f e = f entry) :
    modify (key entry) f (ensure entry entries) = put (f entry) entries := by
  by_cases hmem : key entry ∈ keys entries
  · rw [← hkey] at hsame hmem ⊢
    rw [ensure, if_pos ((has_iff_mem_keys _ _).2 (hkey ▸ hmem)), modify_eq_put hnodup hmem hsame]
  · have hadded : modify (key entry) f [entry] = [f entry] := by rw [modify_cons, if_pos rfl]; rfl
    have hkept := modify_of_not_mem_keys hmem f
    rw [modify] at hadded hkept
    rw [ensure, if_neg (mt (has_iff_mem_keys _ _).1 hmem), put_eq_append (hkey ▸ hmem), modify,
      List.map_append, hadded, hkept]

end Keyed

/-! ## Mentions -/

/-- A mention of an entity: by its id alone, or with a record that is declared for it. -/
inductive Mention (β : Type) where
  | bare (id : String)
  | declaration (record : β)

namespace Mention

variable {β : Type} [Keyed β]

/-- The id of the entity. -/
def id : Mention β → String
  | bare id => id
  | declaration record => Keyed.key record

/-- The record that is declared. -/
def record? : Mention β → Option β
  | bare _ => none
  | declaration record => some record

/-- The ids in the order of first mention. -/
def ids (history : List (Mention β)) : List String := (history.map id).eraseDups

/-- The last record that was declared for an id. -/
def last? (history : List (Mention β)) (k : String) : Option β :=
  ((history.filter (·.id = k)).filterMap record?).getLast?

/-- What is known of an id: the last record that was declared for it, or the implicit one. -/
def known (implicit : String → β) (history : List (Mention β)) (k : String) : β :=
  (last? history k).getD (implicit k)

/-- The entities after a history, in the order of first mention. -/
def entities (implicit : String → β) (history : List (Mention β)) : List β :=
  (ids history).map (known implicit history)

/-- The entities after one more mention: a record takes the place of an earlier one, and the implicit
record is added only if the entity is new. -/
def note (implicit : String → β) (entities : List β) : Mention β → List β
  | bare id => Keyed.ensure (implicit id) entities
  | declaration record => Keyed.put record entities

/-- The ids that are mentioned, one mention further. -/
theorem ids_concat (history : List (Mention β)) (m : Mention β) : ids (history ++ [m]) =
    if m.id ∈ ids history then ids history else ids history ++ [m.id] := by
  rw [ids, List.map_append, List.map_singleton, eraseDups_concat]
  rfl

/-- The last declaration of an id, one mention further. -/
theorem last?_concat (history : List (Mention β)) (m : Mention β) (k : String) :
    last? (history ++ [m]) k =
      if m.id = k then m.record?.or (last? history k) else last? history k := by
  rw [last?, List.filter_append, List.filterMap_append, List.getLast?_append]
  by_cases hk : m.id = k
  · cases m with
    | bare id => simp [hk, record?, last?]
    | declaration record => simp [hk, record?]
  · simp [hk, last?]

/-- What is known of an entity is a record that was declared for it or the implicit one. -/
theorem known_cases (implicit : String → β) (history : List (Mention β)) (k : String) :
    (∃ m ∈ history, m.id = k ∧ m.record? = some (known implicit history k)) ∨
      known implicit history k = implicit k := by
  unfold known
  cases hlast : last? history k with
  | none => exact .inr rfl
  | some record =>
    obtain ⟨m, hm, hrecord⟩ := List.mem_filterMap.1 (List.mem_of_getLast? hlast)
    obtain ⟨hm, hk⟩ := List.mem_filter.1 hm
    exact .inl ⟨m, hm, of_decide_eq_true hk, hrecord⟩

/-- What holds of the implicit records and of all that are declared holds of the entities. -/
theorem forall_mem_entities {implicit : String → β} {history : List (Mention β)} {p : β → Prop}
    (himplicit : ∀ k, p (implicit k))
    (hrecord : ∀ m ∈ history, ∀ record, m.record? = some record → p record) :
    ∀ entity ∈ entities implicit history, p entity := by
  intro entity hentity
  obtain ⟨k, -, rfl⟩ := List.mem_map.1 hentity
  obtain ⟨m, hm, -, hknown⟩ | hknown := known_cases implicit history k
  · exact hrecord m hm _ hknown
  · rw [hknown]
    exact himplicit k

section

variable {implicit : String → β} (himplicit : ∀ k, Keyed.key (implicit k) = k)

include himplicit

/-- What is known of an id has that id as its key. -/
theorem key_known (history : List (Mention β)) (k : String) :
    Keyed.key (known implicit history k) = k := by
  obtain ⟨m, -, hk, hrecord⟩ | hknown := known_cases implicit history k
  · cases m with
    | bare _ => cases hrecord
    | declaration record =>
      obtain rfl := Option.some.inj hrecord
      exact hk
  · rw [hknown, himplicit]

/-- There is an entity for each id that is mentioned, in the order of their first mentions. -/
theorem keys_entities (history : List (Mention β)) :
    Keyed.keys (entities implicit history) = ids history :=
  Keyed.keys_map (key_known himplicit history) _

/-- No entity is there twice. -/
theorem nodup_keys_entities (history : List (Mention β)) :
    (Keyed.keys (entities implicit history)).Nodup := by
  rw [keys_entities himplicit]
  exact nodup_eraseDups _

/-- One more mention changes the entities as it is noted. -/
theorem entities_concat (history : List (Mention β)) (m : Mention β) :
    entities implicit (history ++ [m]) = note implicit (entities implicit history) m := by
  have hkey := key_known himplicit history
  have hother : ∀ k, k ≠ m.id → known implicit (history ++ [m]) k = known implicit history k := by
    intro k hk
    rw [known, known, last?_concat, if_neg (Ne.symm hk)]
  rw [entities, ids_concat]
  -- A bare mention may add an entity, a declaration replaces what is known of it.
  cases m with
  | bare k =>
    -- A bare mention has no bearing on what is known, be the entity new or not.
    have hsame : known implicit (history ++ [bare k]) = known implicit history := by
      funext other
      by_cases hk : other = k
      · rw [known, known, last?_concat, hk]
        simp only [id, record?, if_true, Option.none_or]
      · exact hother other hk
    have hnew : k ∉ ids history → known implicit history k = implicit k := by
      intro hnew
      obtain ⟨m, hm, rfl, -⟩ | hknown := known_cases implicit history k
      · exact absurd (List.mem_eraseDups.2 (List.mem_map_of_mem hm)) hnew
      · exact hknown
    have hensure := Keyed.ensure_map hkey (implicit k) (by rwa [himplicit k])
    rw [himplicit k] at hensure
    rw [hsame]
    exact hensure.symm
  | declaration record =>
    have hself : known implicit (history ++ [declaration record]) (Keyed.key record) = record := by
      rw [known, last?_concat]
      simp only [id, record?, if_true, Option.some_or, Option.getD_some]
    exact (Keyed.put_map hkey hself hother (nodup_eraseDups _)).symm

/-- The entities are made up by taking note of one mention after the other. -/
theorem foldl_note (history : List (Mention β)) :
    history.foldl (note implicit) [] = entities implicit history := by
  induction history using List.reverseRecOn with
  | nil => rfl
  | append_singleton history m ih =>
    rw [List.foldl_append, ih, List.foldl_cons, List.foldl_nil, entities_concat himplicit]

/-- What is known after a run is made up from all its mentions, if each step takes note of its own. A
step may rely on what is known being made up from the mentions before it. -/
theorem entities_of_steps {σ α : Type} {step : σ → α → σ} (get : σ → List β)
    {mentions : α → List (Mention β)}
    (hstep : ∀ (s : σ) (before : List α) (a : α), get s = entities implicit (before.flatMap mentions) →
      get (step s a) = (mentions a).foldl (note implicit) (get s))
    {s : σ} (hstart : get s = []) (steps : List α) :
    get (steps.foldl step s) = entities implicit (steps.flatMap mentions) := by
  -- The last step is the one to look at: the mentions before it make up what it starts from.
  induction steps using List.reverseRecOn with
  | nil => exact hstart
  | append_singleton steps a ih =>
    rw [List.foldl_append, List.foldl_cons, List.foldl_nil, hstep _ _ _ ih, ih,
      ← foldl_note himplicit, ← foldl_note himplicit, List.flatMap_append, List.foldl_append,
      List.flatMap_singleton]

end

end Mention

end TextDiagram
