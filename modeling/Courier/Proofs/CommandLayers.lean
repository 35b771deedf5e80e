import Courier.Proofs.ContentType
import Courier.Proofs.LayerStack
/-!
The layers of a command: its configuration file, the variables, and its words.  Whatever document a
file holds, the headers that are made of it are in order, as are those of the other layers; so the laws
of stacks hold of them, and the settings of a command are made from their stack.
-/
namespace Courier

namespace Toml

variable {shapes : List (String × Json.Shape × Json.Absence)} {document : Toml}
  {conformed : List (String × Json)} {field : String × Json}

/-- The fields of a document in the normal form of a record have the shapes of the record, or are its
defaults. -/
def Normal (shapes : List (String × Json.Shape × Json.Absence)) (field : String × Json) : Prop :=
  ∃ shape absence, (field.1, shape, absence) ∈ shapes ∧
    ((∃ value, conform shape value = some field.2) ∨ missingField absence = some field.2)

/-- One more shape of a record, and a value for it. -/
theorem normal_cons {name : String} {shape : Json.Shape} {absence : Json.Absence} {value : Json}
    (hvalue : (∃ given, conform shape given = some value) ∨ missingField absence = some value)
    (h : ∀ field ∈ conformed, Normal shapes field) :
    ∀ field ∈ (name, value) :: conformed, Normal ((name, shape, absence) :: shapes) field := by
  intro field hfield
  rcases List.mem_cons.mp hfield with rfl | hfield
  · exact ⟨shape, absence, List.mem_cons_self, hvalue⟩
  · obtain ⟨shape', absence', hmem, hvalue'⟩ := h field hfield
    exact ⟨shape', absence', List.mem_cons_of_mem _ hmem, hvalue'⟩

theorem missingField_of_missingItem {absence : Json.Absence} {value : Json}
    (h : missingItem absence = some value) : missingField absence = some value := by
  cases absence with
  | refused => simp [missingItem] at h
  | nullable => simp [missingItem] at h
  | default _ => exact h

theorem normal_of_conformFields {fields : List (String × Toml)}
    (h : conformFields shapes fields = some conformed) : ∀ field ∈ conformed, Normal shapes field := by
  induction shapes generalizing conformed with
  | nil =>
      simp only [conformFields, Option.some.injEq] at h
      simp [← h]
  | cons head rest ih =>
      obtain ⟨name, shape, absence⟩ := head
      rw [conformFields] at h
      cases hlookup : fields.lookup name with
      | none =>
          simp only [hlookup] at h
          obtain ⟨value, hvalue, h⟩ := Option.bind_eq_some_iff.mp h
          obtain ⟨others, hothers, h⟩ := Option.bind_eq_some_iff.mp h
          obtain rfl := Option.some.inj h
          exact normal_cons (.inr hvalue) (ih hothers)
      | some given =>
          simp only [hlookup] at h
          obtain ⟨value, hvalue, h⟩ := Option.bind_eq_some_iff.mp h
          obtain ⟨others, hothers, h⟩ := Option.bind_eq_some_iff.mp h
          obtain rfl := Option.some.inj h
          exact normal_cons (.inl ⟨given, hvalue⟩) (ih hothers)

theorem normal_of_conformItems {values : List Toml}
    (h : conformItems shapes values = some conformed) : ∀ field ∈ conformed, Normal shapes field := by
  induction shapes generalizing conformed values with
  | nil =>
      simp only [conformItems, Option.some.injEq] at h
      simp [← h]
  | cons head rest ih =>
      obtain ⟨name, shape, absence⟩ := head
      cases values with
      | nil =>
          rw [conformItems] at h
          obtain ⟨value, hvalue, h⟩ := Option.bind_eq_some_iff.mp h
          obtain ⟨others, hothers, h⟩ := Option.bind_eq_some_iff.mp h
          obtain rfl := Option.some.inj h
          exact normal_cons (.inr (missingField_of_missingItem hvalue)) (ih hothers)
      | cons given more =>
          rw [conformItems] at h
          obtain ⟨value, hvalue, h⟩ := Option.bind_eq_some_iff.mp h
          obtain ⟨others, hothers, h⟩ := Option.bind_eq_some_iff.mp h
          obtain rfl := Option.some.inj h
          exact normal_cons (.inl ⟨given, hvalue⟩) (ih hothers)

/-- A document in the normal form of a record is an object of such fields. -/
theorem exists_fields_of_conform {name : String} {normal : Json}
    (h : conform (.record name shapes) document = some normal) :
    ∃ conformed, normal = .ofFields conformed ∧ ∀ field ∈ conformed, Normal shapes field := by
  cases document with
  | table fields =>
      obtain ⟨conformed, hconformed, rfl⟩ := Option.map_eq_some_iff.mp h
      exact ⟨conformed, rfl, normal_of_conformFields hconformed⟩
  | list values =>
      obtain ⟨conformed, hconformed, rfl⟩ := Option.map_eq_some_iff.mp h
      exact ⟨conformed, rfl, normal_of_conformItems hconformed⟩
  | _ => nomatch h

/-- The names of a dictionary in normal form are in order. -/
theorem ordered_of_conform_dict {shape : Json.Shape} {normal : Json}
    (h : conform (.dict shape) document = some normal) :
    ∃ fields, normal = .object fields ∧ Fields.Ordered fields := by
  cases document with
  | table fields =>
      obtain ⟨conformed, _, rfl⟩ := Option.map_eq_some_iff.mp h
      exact ⟨_, rfl, Fields.ordered_ofList conformed⟩
  | _ => nomatch h

end Toml

namespace Config

/-- What is made of a document in the normal form has its headers in order. -/
theorem sound_ofJson {document : Toml} {normal : Json}
    (h : Toml.conform shape document = some normal) : Sound (ofJson normal) := by
  obtain ⟨conformed, rfl, hnormal⟩ := Toml.exists_fields_of_conform h
  have hordered : Fields.Ordered (((Json.ofFields conformed).getD "headers").object?.getD []) := by
    cases hlookup : (Fields.ofList conformed).lookup "headers" with
    | none => simp [Json.ofFields, Json.getD, Json.get?, Fields.get?, hlookup, Json.object?,
        Fields.Ordered]
    | some value =>
        obtain ⟨wanted, absence, hmem, hvalue⟩ :=
          hnormal _ (Fields.mem_of_mem_ofList (Fields.mem_of_lookup hlookup))
        have hshape : wanted = .dict .text ∧ absence = .default (.object []) := by
          simpa [Json.Shape.optionalField, Json.Shape.withDefault] using hmem
        obtain ⟨rfl, rfl⟩ := hshape
        simp only [Json.ofFields, Json.getD, Json.get?, Fields.get?, hlookup, Option.getD_some]
        rcases hvalue with ⟨given, hgiven⟩ | hmissing
        · obtain ⟨fields, rfl, hfields⟩ := Toml.ordered_of_conform_dict hgiven
          exact hfields
        · have hvalue : .object [] = value := Option.some.inj hmissing
          rw [← hvalue]
          exact List.Pairwise.nil
  apply List.Pairwise.filterMap _ ?_ hordered
  intro field later hlt header hheader header' hheader'
  obtain ⟨_, _, rfl⟩ := Option.map_eq_some_iff.mp hheader
  obtain ⟨_, _, rfl⟩ := Option.map_eq_some_iff.mp hheader'
  exact hlt

end Config

namespace Command

open Config (Sound)

variable {surroundings : Surroundings} {options : Options} {config file assigned words : Config}

theorem sound_readConfig {path : String} (h : surroundings.readConfig path = .ok config) :
    config.Sound := by
  unfold Surroundings.readConfig at h
  split at h
  · simp at h
  · simp at h
  · split at h
    · simp at h
    · split at h
      · simp at h
      · split at h
        · simp at h
        · rename_i hconform
          rw [← Except.ok.inj h]
          exact Config.sound_ofJson hconform

theorem sound_ofLookup {lookup : String → Option String}
    (h : Config.ofLookup lookup = .ok config) : config.Sound := by
  obtain ⟨timeout, _, h⟩ := bind_eq_ok_iff.mp h
  obtain ⟨attempts, _, h⟩ := bind_eq_ok_iff.mp h
  obtain ⟨limit, _, h⟩ := bind_eq_ok_iff.mp h
  rw [← Except.ok.inj h]
  exact List.Pairwise.nil

theorem sound_overrides (h : options.overrides = .ok config) : config.Sound := by
  unfold Options.overrides at h
  cases hlimit : options.rateLimit with
  | none =>
      simp only [hlimit] at h
      obtain ⟨limit, _, h⟩ := bind_eq_ok_iff.mp h
      rw [← Except.ok.inj h]
      exact List.Pairwise.nil
  | some text =>
      simp only [hlimit] at h
      obtain ⟨limit, _, h⟩ := bind_eq_ok_iff.mp h
      rw [← Except.ok.inj h]
      exact List.Pairwise.nil

/-- A configuration from file and variables is that of the variables on top of that of the file. -/
theorem layers_of_config {chosen : Option String}
    (h : surroundings.config chosen = .ok config) :
    ∃ file assigned, config = file.merge assigned ∧
      (surroundings.configPath? chosen = none ∧ file = {} ∨
        ∃ path, surroundings.configPath? chosen = some path ∧
          surroundings.readConfig path = .ok file) ∧
      Config.ofLookup surroundings.allVariables.get? = .ok assigned := by
  unfold Surroundings.config at h
  cases hpath : surroundings.configPath? chosen with
  | none =>
      simp only [hpath] at h
      obtain ⟨file, hfile, h⟩ := bind_eq_ok_iff.mp h
      obtain ⟨assigned, hassigned, h⟩ := bind_eq_ok_iff.mp h
      exact ⟨file, assigned, (Except.ok.inj h).symm, .inl ⟨rfl, (Except.ok.inj hfile).symm⟩,
        mapError_eq_ok_iff.mp hassigned⟩
  | some path =>
      simp only [hpath] at h
      obtain ⟨file, hfile, h⟩ := bind_eq_ok_iff.mp h
      obtain ⟨assigned, hassigned, h⟩ := bind_eq_ok_iff.mp h
      exact ⟨file, assigned, (Except.ok.inj h).symm, .inr ⟨path, rfl, hfile⟩,
        mapError_eq_ok_iff.mp hassigned⟩

/-- The layers of a command: what its file says, if there is one, what the variables say, and what the
words say. -/
structure Layers (surroundings : Surroundings) (options : Options)
    (file assigned words : Config) : Prop where
  file_eq : surroundings.configPath? options.config = none ∧ file = {} ∨
    ∃ path, surroundings.configPath? options.config = some path ∧
      surroundings.readConfig path = .ok file
  assigned_eq : Config.ofLookup surroundings.allVariables.get? = .ok assigned
  words_eq : options.overrides = .ok words

theorem Layers.sound (h : Layers surroundings options file assigned words) :
    file.Sound ∧ assigned.Sound ∧ words.Sound := by
  refine ⟨?_, sound_ofLookup h.assigned_eq, sound_overrides h.words_eq⟩
  rcases h.file_eq with ⟨_, rfl⟩ | ⟨path, _, hfile⟩
  · exact Config.sound_empty
  · exact sound_readConfig hfile

/-- The settings of a command are made from the stack of its layers. -/
theorem layers_of_plan {settings : Settings} {request : Request}
    (h : plan surroundings options = .ok (settings, request)) :
    ∃ file assigned words draft, Layers surroundings options file assigned words ∧
      (Config.stack [file, assigned, words]).draft surroundings.allVariables.get? = .ok draft ∧
      draft.check = .ok settings := by
  obtain ⟨config, hconfig, h⟩ := bind_eq_ok_iff.mp h
  obtain ⟨words, hwords, h⟩ := bind_eq_ok_iff.mp h
  obtain ⟨draft, hdraft, h⟩ := bind_eq_ok_iff.mp h
  obtain ⟨settings', hsettings, h⟩ := bind_eq_ok_iff.mp h
  obtain ⟨request', _, h⟩ := bind_eq_ok_iff.mp h
  obtain ⟨rfl, rfl⟩ := Prod.mk.inj (Except.ok.inj h)
  obtain ⟨file, assigned, rfl, hfile, hassigned⟩ := layers_of_config hconfig
  have hlayers : Layers surroundings options file assigned words :=
    ⟨hfile, hassigned, mapError_eq_ok_iff.mp hwords⟩
  refine ⟨file, assigned, words, draft, hlayers, ?_, mapError_eq_ok_iff.mp hsettings⟩
  have hstack : Config.stack [file, assigned, words] = (file.merge assigned).merge words := by
    rw [Config.stack, List.foldl_cons, Config.empty_merge hlayers.sound.1]
    rfl
  rw [hstack]
  exact mapError_eq_ok_iff.mp hdraft

end Command

namespace Config

/-- Layers are merged setting by setting, and what is said last about a setting stands; nothing said
leaves it unset.  So it does not matter how layers are grouped, and a layer that says nothing changes
nothing.  The layers of a command are its file, the variables and the words, in this order. -/
theorem last_layer_wins_however_grouped :
    (∀ a b c : Config, a.Sound → b.Sound → c.Sound →
      (a.merge b).merge c = a.merge (b.merge c)) ∧
    (∀ a : Config, a.Sound → ({} : Config).merge a = a ∧ a.merge {} = a) ∧
    (∀ layers : List Config, (∀ layer ∈ layers, layer.Sound) →
      ∀ (α : Type) (setting : Setting α), setting.read (stack layers) = setting.last layers) ∧
    (∀ groups : List (List Config), (∀ group ∈ groups, ∀ layer ∈ group, layer.Sound) →
      stack (groups.map stack) = stack groups.flatten) ∧
    ∀ (surroundings : Command.Surroundings) (options : Command.Options) (settings : Settings)
      (request : Request), Command.plan surroundings options = .ok (settings, request) →
        ∃ file assigned words draft,
          Command.Layers surroundings options file assigned words ∧
          file.Sound ∧ assigned.Sound ∧ words.Sound ∧
          (stack [file, assigned, words]).draft surroundings.allVariables.get? = .ok draft ∧
          draft.check = .ok settings := by
  refine ⟨?_, ?_, ?_, ?_, ?_⟩
  · intro a b c ha hb hc
    exact merge_assoc ha hb hc
  · intro a ha
    exact ⟨empty_merge ha, merge_empty ha⟩
  · intro layers hlayers α setting
    exact read_stack setting hlayers
  · intro groups hgroups
    exact stack_flatten hgroups
  · intro surroundings options settings request hplan
    obtain ⟨file, assigned, words, draft, hlayers, hdraft, hcheck⟩ :=
      Command.layers_of_plan hplan
    obtain ⟨hfile, hassigned, hwords⟩ := hlayers.sound
    exact ⟨file, assigned, words, draft, hlayers, hfile, hassigned, hwords, hdraft, hcheck⟩

end Config

namespace CommandLayersWitness

open Config

/-- A file that says how to try again and what to send along. -/
def file : Config :=
  { headers := [("X-Region", "eu")]
    retry := some { maxAttempts := some 2, initialDelayMillis := some 50 } }

/-- Variables that say where to and how often to try. -/
def assigned : Config :=
  { baseUrl := some "https://mock.local", retry := some { maxAttempts := some 5 } }

/-- Words that say how long to wait, and spell a header in another way. -/
def words : Config :=
  { timeoutMillis := some 800, headers := [("x-region", "us")] }

theorem sound_layers : ∀ layer ∈ [file, assigned, words], layer.Sound := by
  simp [file, assigned, words, Sound, Fields.Ordered]

def surroundings : Command.Surroundings :=
  { environment := {}
    look := fun path =>
      if path = "sendify.toml" then
        some (.file (Octets.ofText "base_url = \"https://mock.local\"\n[headers]\nx-b = \"1\"\n"))
      else none }

def options : Command.Options := { path := "/r", timeoutMillis := some 800 }

/-- One layer says how often to try and another how long to wait; a header that is spelled in two ways
is there twice; and a command with a file has three layers. -/
theorem fields_of_different_layers :
    (∀ layer ∈ [file, assigned, words], layer.Sound) ∧
      Setting.maxAttempts.read (stack [file, assigned, words]) = some 5 ∧
      Setting.initialDelay.read (stack [file, assigned, words]) = some 50 ∧
      Setting.maxDelay.read (stack [file, assigned, words]) = none ∧
      (Setting.header "X-Region").read (stack [file, assigned, words]) = some "eu" ∧
      (file.merge assigned).merge words = file.merge (assigned.merge words) ∧
      ({} : Config).merge file = file ∧
      stack [stack [file, assigned], stack [words]] = stack [file, assigned, words] ∧
      ∃ settings request lowest middle highest,
        Command.plan surroundings options = .ok (settings, request) ∧
        Command.Layers surroundings options lowest middle highest := by
  obtain ⟨hassoc, hempty, hread, hgroups, hplan⟩ := last_layer_wins_however_grouped
  obtain ⟨hfile, hassigned, hwords⟩ : file.Sound ∧ assigned.Sound ∧ words.Sound := by
    simpa using sound_layers
  have hstack := hread _ sound_layers
  refine ⟨sound_layers, ?_, ?_, ?_, ?_, hassoc _ _ _ hfile hassigned hwords, (hempty _ hfile).1,
    ?_, ?_⟩
  · rw [hstack]
    rfl
  · rw [hstack]
    rfl
  · rw [hstack]
    rfl
  · rw [hstack]
    decide +kernel
  · apply hgroups [[file, assigned], [words]]
    simpa using ⟨⟨hfile, hassigned⟩, hwords⟩
  · have hok : (Command.plan surroundings options).isOk = true := by decide +kernel
    cases hrun : Command.plan surroundings options with
    | error e => simp [hrun, Except.isOk, Except.toBool] at hok
    | ok planned =>
        obtain ⟨lowest, middle, highest, _, hlayers, _⟩ := hplan _ _ planned.1 planned.2 hrun
        exact ⟨planned.1, planned.2, lowest, middle, highest, rfl, hlayers⟩

end CommandLayersWitness
end Courier
