import Courier.Config.Source
import Courier.Proofs.Preparation
/-!
Layers of configurations and the default headers of the client that is built from them.  Layers are
merged by the spelling of a name, but a client has one value for a name in any letter case: that of
the last spelling, and the user agent comes in front of all spellings.  So the upper layer wins
unless the lower one spells the name in a way that comes later.
-/
namespace Courier

namespace Fields

variable {α : Type} {fields lower upper : List (String × α)} {field : String × α}

/-- Names go up, so no two fields have one name. -/
def Ordered (fields : List (String × α)) : Prop :=
  fields.Pairwise fun field later => field.1 < later.1

/-- The fields of one list on top of those of another. -/
def overlay (lower upper : List (String × α)) : List (String × α) :=
  upper.foldl (fun acc field => insert field.1 field.2 acc) lower

theorem lt_of_ne_of_not_lt {key name : String} (hne : key ≠ name) (h : ¬ key < name) :
    name < key :=
  Std.lt_of_le_of_ne (Std.not_lt.mp h) hne.symm

theorem ne_of_lt {key name : String} (h : key < name) : name ≠ key := by
  intro heq
  rw [heq] at h
  exact String.lt_irrefl _ h

/-- A field that is put in is there, and of the others those with another name. -/
theorem mem_insert_iff (h : Ordered fields) {key : String} {value : α} :
    field ∈ insert key value fields ↔ field = (key, value) ∨ field ∈ fields ∧ field.1 ≠ key := by
  induction fields with
  | nil => simp [insert]
  | cons head rest ih =>
      obtain ⟨hhead, hrest⟩ := List.pairwise_cons.mp h
      by_cases hkey : key = head.1
      · have hother : ∀ later ∈ rest, later.1 ≠ key := by
          intro later hlater
          rw [hkey]
          exact ne_of_lt (hhead later hlater)
        simp only [insert, hkey, ↓reduceIte, List.mem_cons]
        grind
      · by_cases hlt : key < head.1
        · have hother : ∀ later ∈ rest, later.1 ≠ key := by
            intro later hlater
            exact ne_of_lt (String.lt_trans hlt (hhead later hlater))
          simp only [insert, hkey, hlt, ↓reduceIte, List.mem_cons]
          grind
        · simp only [insert, hkey, hlt, ↓reduceIte, List.mem_cons, ih hrest]
          grind

theorem Ordered.insert (h : Ordered fields) (key : String) (value : α) :
    Ordered (insert key value fields) := by
  induction fields with
  | nil => simp [Fields.insert, Ordered]
  | cons head rest ih =>
      obtain ⟨hhead, hrest⟩ := List.pairwise_cons.mp h
      by_cases hkey : key = head.1
      · rw [Fields.insert, if_pos hkey]
        refine List.pairwise_cons.mpr ⟨?_, hrest⟩
        rw [hkey]
        exact hhead
      · by_cases hlt : key < head.1
        · rw [Fields.insert, if_neg hkey, if_pos hlt]
          refine List.pairwise_cons.mpr ⟨?_, h⟩
          intro later hlater
          rcases List.mem_cons.mp hlater with rfl | hlater
          · exact hlt
          · exact String.lt_trans hlt (hhead later hlater)
        · rw [Fields.insert, if_neg hkey, if_neg hlt]
          refine List.pairwise_cons.mpr ⟨?_, ih hrest⟩
          intro later hlater
          rcases (mem_insert_iff hrest).mp hlater with rfl | ⟨hlater, _⟩
          · exact lt_of_ne_of_not_lt hkey hlt
          · exact hhead later hlater

/-- The fields of the upper list are there, and of the lower one those with other names. -/
theorem mem_overlay_iff (hlower : Ordered lower) (hupper : Ordered upper) :
    field ∈ overlay lower upper ↔
      field ∈ upper ∨ field ∈ lower ∧ ∀ above ∈ upper, above.1 ≠ field.1 := by
  induction upper generalizing lower with
  | nil => simp [overlay]
  | cons head rest ih =>
      obtain ⟨hhead, hrest⟩ := List.pairwise_cons.mp hupper
      have hstep : overlay lower (head :: rest) =
          overlay (Fields.insert head.1 head.2 lower) rest := rfl
      have hother : ∀ later ∈ rest, later.1 ≠ head.1 := by
        intro later hlater
        exact ne_of_lt (hhead later hlater)
      rw [hstep, ih (hlower.insert head.1 head.2) hrest, mem_insert_iff hlower]
      simp only [List.mem_cons]
      grind

theorem Ordered.overlay (hlower : Ordered lower) (upper : List (String × α)) :
    Ordered (overlay lower upper) := by
  induction upper generalizing lower with
  | nil => exact hlower
  | cons head rest ih => exact ih (hlower.insert head.1 head.2)

end Fields

namespace Headers

theorem lastOf_append (calls later : List (String × String)) (name : HeaderName) :
    lastOf (calls ++ later) name = (lastOf later name).or (lastOf calls name) := by
  rw [lastOf, List.filterMap_append, List.getLast?_append]
  rfl

/-- Both texts of a field that is put in can be read. -/
theorem readable_of_insertTexts {calls : List (String × String)} {headers headers' : Headers}
    (h : headers.insertTexts calls = .ok headers') :
    ∀ call ∈ calls, ∃ name value,
      HeaderName.parse? call.1 = some name ∧ HeaderValue.ofText? call.2 = some value := by
  induction calls generalizing headers with
  | nil => simp
  | cons head rest ih =>
      obtain ⟨name, value⟩ := head
      cases hfield : HeaderName.parseField name value with
      | error e => simp [insertTexts, hfield] at h
      | ok field =>
          simp only [insertTexts, hfield] at h
          intro call hcall
          rcases List.mem_cons.mp hcall with rfl | hcall
          · exact ⟨field.1, field.2, HeaderName.parseField_eq_ok_iff.mp hfield⟩
          · exact ih h call hcall

end Headers

theorem HeaderName.parse?_userAgent : parse? userAgent.text = some .userAgent := by
  decide +kernel

namespace Config

def Unspelled (headers : List (String × String)) (name : HeaderName) : Prop :=
  ∀ header ∈ headers, HeaderName.parse? header.1 ≠ some name

/-- The last of the headers that spell a name. -/
structure LastSpelling (headers : List (String × String)) (name : HeaderName)
    (header : String × String) : Prop where
  mem : header ∈ headers
  spells : HeaderName.parse? header.1 = some name
  last : ∀ other ∈ headers, HeaderName.parse? other.1 = some name →
    other = header ∨ other.1 < header.1

/-- A configuration says something about a name: by a header or, about the user agent, by its own
field. -/
def Sets (config : Config) (name : HeaderName) : Prop :=
  ¬ Unspelled config.headers name ∨ name = .userAgent ∧ config.userAgent ≠ none

/-- The lower of two layers spells a name in a way that comes after all spellings of the upper. -/
structure Shadows (lower upper : Config) (name : HeaderName) (header : String × String) : Prop where
  last : LastSpelling lower.headers name header
  after : ∀ above ∈ upper.headers, HeaderName.parse? above.1 = some name → above.1 < header.1

/-- The value of a header with the values of variables in the place of placeholders. -/
def expanded? (lookup : String → Option String) (header : String × String) : Option HeaderValue :=
  (expand lookup header.2).toOption.bind HeaderValue.ofText?

/-- What the field for the user agent says about a name. -/
def agent? (config : Config) (name : HeaderName) : Option HeaderValue :=
  if .userAgent = name then config.userAgent.bind HeaderValue.ofText? else none

variable {lower upper config : Config} {name : HeaderName} {header head : String × String}
  {headers rest calls : List (String × String)} {lookup : String → Option String}

theorem LastSpelling.cons (h : LastSpelling rest name header)
    (hordered : Fields.Ordered (head :: rest)) : LastSpelling (head :: rest) name header := by
  refine ⟨List.mem_cons_of_mem head h.mem, h.spells, ?_⟩
  intro other hother hspells
  rcases List.mem_cons.mp hother with rfl | hother
  · exact .inr ((List.pairwise_cons.mp hordered).1 header h.mem)
  · exact h.last other hother hspells

theorem lastSpelling_head (hspells : HeaderName.parse? head.1 = some name)
    (hrest : Unspelled rest name) : LastSpelling (head :: rest) name head := by
  refine ⟨List.mem_cons_self, hspells, ?_⟩
  intro other hother hother'
  rcases List.mem_cons.mp hother with rfl | hother
  · exact .inl rfl
  · exact absurd hother' (hrest other hother)

/-- A name that is spelled is spelled a last time. -/
theorem exists_lastSpelling (hordered : Fields.Ordered headers) (h : ¬ Unspelled headers name) :
    ∃ header, LastSpelling headers name header := by
  induction headers with
  | nil => simp [Unspelled] at h
  | cons head rest ih =>
      by_cases hrest : Unspelled rest name
      · by_cases hspells : HeaderName.parse? head.1 = some name
        · exact ⟨head, lastSpelling_head hspells hrest⟩
        · have hnone : Unspelled (head :: rest) name := by
            rw [Unspelled, List.forall_mem_cons]
            exact ⟨hspells, hrest⟩
          exact absurd hnone h
      · obtain ⟨header, hlast⟩ := ih (List.pairwise_cons.mp hordered).2 hrest
        exact ⟨header, hlast.cons hordered⟩

theorem LastSpelling.unique {other : String × String} (h : LastSpelling headers name header)
    (hother : LastSpelling headers name other) : other = header := by
  rcases h.last other hother.mem hother.spells with heq | hlt
  · exact heq
  · rcases hother.last header h.mem h.spells with heq | hgt
    · exact heq.symm
    · exact absurd (String.lt_trans hlt hgt) (String.lt_irrefl _)

/-- Placeholders stand in values only. -/
theorem names_of_expandHeaders (h : expandHeaders lookup headers = .ok calls) :
    calls.map (·.1) = headers.map (·.1) := by
  induction headers generalizing calls with
  | nil =>
      rw [expandHeaders, Except.ok.injEq] at h
      rw [← h]
  | cons head rest ih =>
      obtain ⟨value, _, h⟩ := bind_eq_ok_iff.mp h
      obtain ⟨after, hafter, h⟩ := bind_eq_ok_iff.mp h
      simp only [pure, Except.pure, Except.ok.injEq] at h
      simp [← h, ih hafter]

theorem lastOf_of_unspelled (h : expandHeaders lookup headers = .ok calls)
    (hnone : Unspelled headers name) : Headers.lastOf calls name = none := by
  refine Headers.lastOf_eq_none ?_
  intro call hcall
  have hname : call.1 ∈ headers.map (·.1) := by
    rw [← names_of_expandHeaders h]
    exact List.mem_map_of_mem hcall
  obtain ⟨header, hheader, heq⟩ := List.mem_map.mp hname
  rw [← heq]
  exact hnone header hheader

/-- Of several spellings of a name the last one gives the value. -/
theorem lastOf_of_lastSpelling (hordered : Fields.Ordered headers)
    (h : expandHeaders lookup headers = .ok calls)
    (hread : ∀ call ∈ calls, ∃ name value,
      HeaderName.parse? call.1 = some name ∧ HeaderValue.ofText? call.2 = some value)
    (hlast : LastSpelling headers name header) :
    ∃ value, expanded? lookup header = some value ∧ Headers.lastOf calls name = some value := by
  induction headers generalizing calls with
  | nil => exact absurd hlast.mem (List.not_mem_nil)
  | cons head rest ih =>
      obtain ⟨text, htext, h⟩ := bind_eq_ok_iff.mp h
      obtain ⟨after, hafter, h⟩ := bind_eq_ok_iff.mp h
      simp only [pure, Except.pure, Except.ok.injEq] at h
      subst h
      obtain ⟨⟨spelled, value, hname, hvalue⟩, hread⟩ := List.forall_mem_cons.mp hread
      rw [Headers.lastOf_cons hname hvalue]
      by_cases hrest : Unspelled rest name
      · have hhead : head = header := by
          rcases List.mem_cons.mp hlast.mem with heq | hmem
          · exact heq.symm
          · exact absurd hlast.spells (hrest header hmem)
        have hspelled : spelled = name := by
          rw [← Option.some.injEq, ← hname, ← hlast.spells, ← hhead]
        refine ⟨value, ?_, ?_⟩
        · rw [expanded?, ← hhead, htext]
          exact hvalue
        · simp [lastOf_of_unspelled hafter hrest, hspelled]
      · obtain ⟨_, hordered'⟩ := List.pairwise_cons.mp hordered
        obtain ⟨other, hother⟩ := exists_lastSpelling hordered' hrest
        have heq : other = header := hlast.unique (hother.cons hordered)
        rw [heq] at hother
        obtain ⟨value', hexpanded, hvalue'⟩ := ih hordered' hafter hread hother
        refine ⟨value', hexpanded, ?_⟩
        rw [hvalue', Option.some_or]

/-- The field for the user agent as a header in front of all others. -/
def agentHeader (config : Config) : List (String × String) :=
  (config.userAgent.map fun agent => (HeaderName.userAgent.text, agent)).toList

theorem lastOf_agentHeader (config : Config) (name : HeaderName) :
    Headers.lastOf config.agentHeader name = config.agent? name := by
  have hparse := HeaderName.parse?_userAgent
  unfold agentHeader agent? Headers.lastOf
  cases config.userAgent with
  | none => simp
  | some agent =>
      by_cases hname : HeaderName.userAgent = name
      · rw [hname] at hparse
        cases hvalue : HeaderValue.ofText? agent with
        | none => simp [hname, hparse, hvalue]
        | some value => simp [hname, hparse, hvalue]
      · simp [hparse, hname]

theorem headers_of_draft {draft : Draft} (h : config.draft lookup = .ok draft) :
    ∃ calls, expandHeaders lookup config.headers = .ok calls ∧
      draft.headers = config.agentHeader ++ calls := by
  obtain ⟨calls, hcalls, h⟩ := bind_eq_ok_iff.mp h
  simp only [pure, Except.pure, Except.ok.injEq] at h
  rw [← h]
  exact ⟨calls, hcalls, rfl⟩

/-- What the settings have of the configuration that they are made from: for every name what its
headers say, else what its field for the user agent says, else what every client has. -/
theorem holds_of_draft {draft : Draft} {settings : Settings} {base : Option String}
    (hdraft : config.draft lookup = .ok draft)
    (hcheck : { draft with baseUrl := base }.check = .ok settings) :
    ∃ calls, expandHeaders lookup config.headers = .ok calls ∧
      (∀ call ∈ calls, ∃ name value,
        HeaderName.parse? call.1 = some name ∧ HeaderValue.ofText? call.2 = some value) ∧
      settings.headers.Holds fun name =>
        (Headers.lastOf calls name).or
          ((config.agent? name).or (Draft.builtInHeaders.get? name)) := by
  obtain ⟨calls, hcalls, hheaders⟩ := headers_of_draft hdraft
  have hput := Draft.insertTexts_of_overlay (Draft.checked_of_check hcheck).headers
  simp only [hheaders] at hput
  refine ⟨calls, hcalls, ?_, ?_⟩
  · intro call hcall
    exact Headers.readable_of_insertTexts hput call (List.mem_append_right _ hcall)
  · intro name
    rw [Draft.holds_builtInHeaders.insertTexts hput name]
    simp only [Headers.lastOf_append, lastOf_agentHeader, Option.or_assoc]

variable {draft : Draft} {settings : Settings} {base : Option String}

/-- A name that is spelled has the value of its last spelling. -/
theorem getAll_of_lastSpelling (hordered : Fields.Ordered config.headers)
    (hdraft : config.draft lookup = .ok draft)
    (hcheck : { draft with baseUrl := base }.check = .ok settings)
    (hlast : LastSpelling config.headers name header) :
    ∃ value, expanded? lookup header = some value ∧ settings.headers.getAll name = [value] := by
  obtain ⟨calls, hcalls, hread, hholds⟩ := holds_of_draft hdraft hcheck
  obtain ⟨value, hexpanded, hvalue⟩ := lastOf_of_lastSpelling hordered hcalls hread hlast
  refine ⟨value, hexpanded, ?_⟩
  rw [hholds name]
  simp [hvalue]

/-- Another name has what is said in the field for the user agent, or what every client has. -/
theorem getAll_of_unspelled (hdraft : config.draft lookup = .ok draft)
    (hcheck : { draft with baseUrl := base }.check = .ok settings)
    (hnone : Unspelled config.headers name) :
    settings.headers.getAll name =
      ((config.agent? name).or (Draft.builtInHeaders.get? name)).toList := by
  obtain ⟨calls, hcalls, _, hholds⟩ := holds_of_draft hdraft hcheck
  rw [hholds name]
  simp [lastOf_of_unspelled hcalls hnone]

/-- The headers of merged layers are those of the upper one and, with other spellings, those of the
lower. -/
theorem mem_headers_merge_iff (hlower : Fields.Ordered lower.headers)
    (hupper : Fields.Ordered upper.headers) (header : String × String) :
    header ∈ (lower.merge upper).headers ↔
      header ∈ upper.headers ∨
        header ∈ lower.headers ∧ ∀ above ∈ upper.headers, above.1 ≠ header.1 :=
  Fields.mem_overlay_iff hlower hupper

theorem ordered_headers_merge (hlower : Fields.Ordered lower.headers) (upper : Config) :
    Fields.Ordered (lower.merge upper).headers :=
  hlower.overlay upper.headers

/-- A spelling that comes after those of the upper layer is the last of both. -/
theorem Shadows.lastSpelling_merge (hlower : Fields.Ordered lower.headers)
    (hupper : Fields.Ordered upper.headers) (h : lower.Shadows upper name header) :
    LastSpelling (lower.merge upper).headers name header := by
  have hmerge := mem_headers_merge_iff hlower hupper
  refine ⟨(hmerge _).mpr (.inr ⟨h.last.mem, ?_⟩), h.last.spells, ?_⟩
  · intro above habove heq
    have hlt : above.1 < header.1 := h.after above habove (by rw [heq, h.last.spells])
    rw [heq] at hlt
    exact String.lt_irrefl _ hlt
  · intro other hother hspells
    rcases (hmerge _).mp hother with habove | ⟨hbelow, _⟩
    · exact .inr (h.after other habove hspells)
    · exact h.last.last other hbelow hspells

/-- Without such a spelling the last of the upper layer is the last of both. -/
theorem LastSpelling.merge (hlower : Fields.Ordered lower.headers)
    (hupper : Fields.Ordered upper.headers) (hlast : LastSpelling upper.headers name header)
    (h : ∀ below, ¬ lower.Shadows upper name below) :
    LastSpelling (lower.merge upper).headers name header := by
  have hmerge := mem_headers_merge_iff hlower hupper
  refine ⟨(hmerge _).mpr (.inl hlast.mem), hlast.spells, ?_⟩
  intro other hother hspells
  rcases (hmerge _).mp hother with habove | ⟨hbelow, hnew⟩
  · exact hlast.last other habove hspells
  · by_cases hlt : other.1 < header.1
    · exact .inr hlt
    · -- then `other` comes after all of the upper layer, and so does the last one of the lower
      have hgt : header.1 < other.1 :=
        Fields.lt_of_ne_of_not_lt (hnew header hlast.mem).symm hlt
      have hspelled : ¬ Unspelled lower.headers name := fun hnone => hnone other hbelow hspells
      obtain ⟨below, hbelow'⟩ := exists_lastSpelling hlower hspelled
      refine absurd ⟨hbelow', ?_⟩ (h below)
      intro above habove habove'
      have hle : above.1 < other.1 := by
        rcases hlast.last above habove habove' with rfl | hlt
        · exact hgt
        · exact String.lt_trans hlt hgt
      rcases hbelow'.last other hbelow hspells with rfl | hlt
      · exact hle
      · exact String.lt_trans hle hlt

/-- What neither layer spells is not spelled by both. -/
theorem unspelled_merge (hlower : Fields.Ordered lower.headers)
    (hupper : Fields.Ordered upper.headers) (hnone : Unspelled upper.headers name)
    (h : ∀ below, ¬ lower.Shadows upper name below) :
    Unspelled (lower.merge upper).headers name := by
  have hbelow : Unspelled lower.headers name := by
    by_cases hbelow : Unspelled lower.headers name
    · exact hbelow
    · obtain ⟨below, hlast⟩ := exists_lastSpelling hlower hbelow
      refine absurd ⟨hlast, ?_⟩ (h below)
      intro above habove hspells
      exact absurd hspells (hnone above habove)
  intro header hheader
  rcases (mem_headers_merge_iff hlower hupper _).mp hheader with habove | ⟨hmem, _⟩
  · exact hnone header habove
  · exact hbelow header hmem

/-- Of what the upper of two layers says about a name the client that is built from both has what the
client has that is built from the upper one alone, unless the lower layer spells the name in a way
that comes after all of the upper: then it has what the lower layer says there. -/
theorem upper_layer_wins_unless_shadowed {draft' : Draft} {alone merged : Settings}
    {base' : Option String} (hlower : Fields.Ordered lower.headers)
    (hupper : Fields.Ordered upper.headers) (hsets : upper.Sets name)
    (halone : upper.draft lookup = .ok draft)
    (halone' : { draft with baseUrl := base }.check = .ok alone)
    (hmerged : (lower.merge upper).draft lookup = .ok draft')
    (hmerged' : { draft' with baseUrl := base' }.check = .ok merged) :
    ((∀ below, ¬ lower.Shadows upper name below) →
        merged.headers.getAll name = alone.headers.getAll name) ∧
      ∀ below, lower.Shadows upper name below →
        ∃ value, expanded? lookup below = some value ∧ merged.headers.getAll name = [value] := by
  have hordered := ordered_headers_merge hlower upper
  refine ⟨?_, ?_⟩
  · intro hnone
    by_cases hspelled : Unspelled upper.headers name
    · have hagent : (lower.merge upper).agent? name = upper.agent? name := by
        obtain ⟨rfl, hagent⟩ := hsets.resolve_left (not_not_intro hspelled)
        obtain ⟨agent, hagent⟩ := Option.ne_none_iff_exists'.mp hagent
        simp [agent?, merge, hagent]
      rw [getAll_of_unspelled hmerged hmerged' (unspelled_merge hlower hupper hspelled hnone),
        getAll_of_unspelled halone halone' hspelled, hagent]
    · obtain ⟨above, hlast⟩ := exists_lastSpelling hupper hspelled
      obtain ⟨value, hvalue, halone⟩ := getAll_of_lastSpelling hupper halone halone' hlast
      obtain ⟨value', hvalue', hmerged⟩ := getAll_of_lastSpelling hordered hmerged hmerged'
        (hlast.merge hlower hupper hnone)
      rw [hmerged, halone, ← Option.some.inj (hvalue.symm.trans hvalue')]
  · intro below hshadows
    exact getAll_of_lastSpelling hordered hmerged hmerged'
      (hshadows.lastSpelling_merge hlower hupper)

end Config

namespace ConfigLayersWitness

open Config

/-- A file that says who calls and from where. -/
def file : Config :=
  { headers := [("User-Agent", "from-file"), ("x-region", "eu")] }

/-- What lies on top of it says both in other ways. -/
def overrides : Config :=
  { userAgent := some "from-variables", headers := [("X-Mode", "fast"), ("x-region", "us")] }

def noVariable : String → Option String := fun _ => none

def base : Option String := some "https://mock.local"

def text (s : String) : HeaderValue := ⟨Octets.ofText s, false⟩

/-- The values of two names in the client of a configuration. -/
def values? (config : Config) : Option (List HeaderValue × List HeaderValue) :=
  (config.draft noVariable).toOption.bind fun draft =>
    { draft with baseUrl := base }.check.toOption.map fun settings : Settings =>
      (settings.headers.getAll .userAgent, settings.headers.getAll ⟨"x-region"⟩)

theorem exists_settings {config : Config} {agent region : List HeaderValue}
    (h : values? config = some (agent, region)) :
    ∃ draft settings, config.draft noVariable = .ok draft ∧
      { draft with baseUrl := base }.check = .ok settings ∧
      settings.headers.getAll .userAgent = agent ∧ settings.headers.getAll ⟨"x-region"⟩ = region := by
  unfold values? at h
  cases hdraft : config.draft noVariable with
  | error e => simp [hdraft, Except.toOption] at h
  | ok draft =>
      cases hcheck : { draft with baseUrl := base }.check with
      | error e => simp [hdraft, hcheck, Except.toOption] at h
      | ok settings =>
          simp only [hdraft, hcheck, Except.toOption, Option.bind_some, Option.map_some,
            Option.some.injEq, Prod.mk.injEq] at h
          exact ⟨draft, settings, rfl, hcheck, h.1, h.2⟩

theorem ordered_file : Fields.Ordered file.headers := by
  unfold Fields.Ordered file
  decide

theorem ordered_overrides : Fields.Ordered overrides.headers := by
  unfold Fields.Ordered overrides
  decide

theorem alone_values :
    values? overrides = some ([text "from-variables"], [text "us"]) := by
  decide +kernel

theorem merged_values :
    values? (file.merge overrides) = some ([text "from-file"], [text "us"]) := by
  decide +kernel

/-- The file has a header for the user agent, the layer above it has none. -/
theorem file_shadows_agent : file.Shadows overrides .userAgent ("User-Agent", "from-file") := by
  have hlast : ∀ other ∈ file.headers, HeaderName.parse? other.1 = some .userAgent →
      other = ("User-Agent", "from-file") ∨ other.1 < "User-Agent" := by
    decide
  refine ⟨⟨List.mem_cons_self, by decide, hlast⟩, ?_⟩
  decide

theorem file_does_not_shadow_region (below : String × String) :
    ¬ file.Shadows overrides ⟨"x-region"⟩ below := by
  have hbelow : ∀ below ∈ file.headers, HeaderName.parse? below.1 = some ⟨"x-region"⟩ →
      below.1 = "x-region" := by
    decide
  intro h
  have hlt := h.after ("x-region", "us") (by decide) (by decide)
  rw [hbelow below h.last.mem h.last.spells] at hlt
  exact String.lt_irrefl _ hlt

/-- The user agent of the file is sent, not that of the layer above; of the region it is the other
way about. -/
theorem agent_of_file_region_of_variables :
    ∃ draft alone draft' merged, overrides.draft noVariable = .ok draft ∧
      { draft with baseUrl := base }.check = .ok alone ∧
      (file.merge overrides).draft noVariable = .ok draft' ∧
      { draft' with baseUrl := base }.check = .ok merged ∧
      alone.headers.getAll .userAgent = [text "from-variables"] ∧
      merged.headers.getAll .userAgent = [text "from-file"] ∧
      merged.headers.getAll ⟨"x-region"⟩ = alone.headers.getAll ⟨"x-region"⟩ := by
  obtain ⟨draft, alone, halone, halone', hagent, _⟩ := exists_settings alone_values
  obtain ⟨draft', merged, hmerged, hmerged', _⟩ := exists_settings merged_values
  have hspelled : ¬ Unspelled overrides.headers ⟨"x-region"⟩ :=
    fun hnone => hnone ("x-region", "us") (by decide +kernel) (by decide +kernel)
  have hregion := (upper_layer_wins_unless_shadowed ordered_file ordered_overrides
    (.inl hspelled) halone halone' hmerged hmerged').1 file_does_not_shadow_region
  obtain ⟨value, hvalue, hmerged_agent⟩ := (upper_layer_wins_unless_shadowed ordered_file
    ordered_overrides (.inr ⟨rfl, by decide⟩) halone halone' hmerged hmerged').2 _
    file_shadows_agent
  have hexpanded : expanded? noVariable ("User-Agent", "from-file") = some (text "from-file") := by
    decide +kernel
  rw [hexpanded, Option.some.injEq] at hvalue
  rw [← hvalue] at hmerged_agent
  exact ⟨draft, alone, draft', merged, halone, halone', hmerged, hmerged', hagent, hmerged_agent,
    hregion⟩

/-- It is not so that what the upper layer says about a name is always what the client has. -/
theorem upper_layer_overruled :
    ¬ ∀ (lower upper : Config) (lookup : String → Option String) (name : HeaderName)
        (draft draft' : Draft) (base base' : Option String) (alone merged : Settings),
      Fields.Ordered lower.headers → Fields.Ordered upper.headers → upper.Sets name →
      upper.draft lookup = .ok draft → { draft with baseUrl := base }.check = .ok alone →
      (lower.merge upper).draft lookup = .ok draft' →
      { draft' with baseUrl := base' }.check = .ok merged →
        merged.headers.getAll name = alone.headers.getAll name := by
  intro h
  obtain ⟨draft, alone, halone, halone', hagent, _⟩ := exists_settings alone_values
  obtain ⟨draft', merged, hmerged, hmerged', hagent', _⟩ := exists_settings merged_values
  have heq := h file overrides noVariable .userAgent draft draft' base base alone merged
    ordered_file ordered_overrides (.inr ⟨rfl, by decide⟩) halone halone' hmerged hmerged'
  rw [hagent, hagent'] at heq
  exact absurd heq (by decide +kernel)

end ConfigLayersWitness
end Courier
