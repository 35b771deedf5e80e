import Courier.Proofs.ConfigLayers
import Courier.Proofs.Lookup
import Mathlib.Data.List.Sort
/-!
Stacks of configurations.  A configuration is the sum of what it says about single settings: two that
say the same are the same.  Of two layers the upper one is asked first, setting by setting; so a stack
says what its last layer says that says anything, and it does not matter how layers are grouped.
-/
namespace Courier

namespace Fields

variable {α : Type} {fields fields' lower upper : List (String × α)} {field : String × α}
  {key : String} {value : α}

theorem lookup_insert (fields : List (String × α)) (key name : String) (value : α) :
    (insert key value fields).lookup name =
      if name = key then some value else fields.lookup name := by
  induction fields with
  | nil => rw [insert, lookup_cons_eq]
  | cons head rest ih =>
      by_cases hkey : key = head.1
      · rw [insert, if_pos hkey, lookup_cons_eq, lookup_cons_eq, ← hkey]
        by_cases hname : name = key
        · rw [if_pos hname, if_pos hname]
        · rw [if_neg hname, if_neg hname, if_neg hname]
      · by_cases hlt : key < head.1
        · rw [insert, if_neg hkey, if_pos hlt, lookup_cons_eq]
        · rw [insert, if_neg hkey, if_neg hlt, lookup_cons_eq, lookup_cons_eq, ih]
          by_cases hname : name = key
          · rw [if_pos hname, if_pos hname, if_neg (hname ▸ hkey)]
          · rw [if_neg hname, if_neg hname]

theorem lookup_eq_none_of_lt (h : ∀ field ∈ fields, key < field.1) : fields.lookup key = none := by
  apply List.lookup_eq_none_iff.mpr
  intro field hfield
  exact bne_iff_ne.mpr (ne_of_lt (h field hfield)).symm

/-- The upper of two lists is asked first. -/
theorem lookup_overlay (hupper : Ordered upper) (name : String) :
    (overlay lower upper).lookup name = (upper.lookup name).or (lower.lookup name) := by
  induction upper generalizing lower with
  | nil => rfl
  | cons head rest ih =>
      obtain ⟨hhead, hrest⟩ := List.pairwise_cons.mp hupper
      have hstep : overlay lower (head :: rest) =
          overlay (Fields.insert head.1 head.2 lower) rest := rfl
      rw [hstep, ih hrest, lookup_insert, lookup_cons_eq]
      by_cases hname : name = head.1
      · rw [hname, lookup_eq_none_of_lt hhead]
        simp
      · simp [hname]

theorem lookup_eq_some_iff (h : Ordered fields) :
    fields.lookup key = some value ↔ (key, value) ∈ fields := by
  induction fields with
  | nil => simp
  | cons head rest ih =>
      obtain ⟨hhead, hrest⟩ := List.pairwise_cons.mp h
      rw [lookup_cons_eq, List.mem_cons]
      by_cases hkey : key = head.1
      · have hnot : (key, value) ∉ rest := by
          intro hmem
          exact String.lt_irrefl _ (hkey ▸ hhead _ hmem)
        rw [if_pos hkey, Option.some.injEq, or_iff_left hnot, Prod.ext_iff, eq_comm]
        exact (and_iff_right hkey).symm
      · have hne : (key, value) ≠ head := fun heq => hkey (congrArg Prod.fst heq)
        rw [if_neg hkey, ih hrest, or_iff_right hne]

/-- Lists in order are the same if they have the same values. -/
theorem Ordered.ext (h : Ordered fields) (h' : Ordered fields')
    (hlookup : ∀ key, fields.lookup key = fields'.lookup key) : fields = fields' := by
  have hirrefl : ∀ fields : List (String × α), Ordered fields → fields.Nodup := by
    intro fields hfields
    apply hfields.imp
    intro field later hlt heq
    exact String.lt_irrefl _ (heq ▸ hlt)
  have hperm : fields.Perm fields' := by
    apply (List.perm_ext_iff_of_nodup (hirrefl _ h) (hirrefl _ h')).mpr
    intro field
    rw [← lookup_eq_some_iff h, ← lookup_eq_some_iff h', hlookup]
  apply List.Perm.eq_of_pairwise ?_ h h' hperm
  intro field later _ _ hlt hgt
  exact absurd (String.lt_trans hlt hgt) (String.lt_irrefl _)

theorem mem_of_mem_insert (hmem : field ∈ insert key value fields) :
    field = (key, value) ∨ field ∈ fields := by
  induction fields with
  | nil => exact .inl (List.mem_singleton.mp hmem)
  | cons head rest ih =>
      obtain ⟨k, v⟩ := head
      simp only [insert] at hmem
      split at hmem
      · exact (List.mem_cons.mp hmem).imp id (List.mem_cons_of_mem _)
      · split at hmem
        · exact List.mem_cons.mp hmem
        · rcases List.mem_cons.mp hmem with rfl | hmem
          · exact .inr List.mem_cons_self
          · exact (ih hmem).imp id (List.mem_cons_of_mem _)

theorem mem_of_mem_overlay (hmem : field ∈ overlay lower upper) : field ∈ lower ∨ field ∈ upper := by
  induction upper generalizing lower with
  | nil => exact .inl hmem
  | cons head rest ih =>
      rcases ih hmem with hmem | hmem
      · rcases mem_of_mem_insert hmem with rfl | hmem
        · exact .inr List.mem_cons_self
        · exact .inl hmem
      · exact .inr (List.mem_cons_of_mem _ hmem)

theorem mem_of_mem_ofList (hmem : field ∈ ofList fields) : field ∈ fields :=
  (mem_of_mem_overlay hmem).resolve_left List.not_mem_nil

theorem ordered_ofList (fields : List (String × α)) : Ordered (ofList fields) :=
  Ordered.overlay List.Pairwise.nil fields

theorem mem_of_lookup (h : fields.lookup key = some value) : (key, value) ∈ fields := by
  obtain ⟨before, after, rfl, _⟩ := List.lookup_eq_some_iff.mp h
  exact List.mem_append_right _ List.mem_cons_self

end Fields

namespace Config

/-- A single thing that a configuration may say. -/
inductive Setting : Type → Type
  | baseUrl : Setting String
  | timeout : Setting Nat
  | userAgent : Setting String
  | contentType : Setting String
  | limit : Setting Limit
  /-- that failed requests are tried again at all -/
  | retry : Setting Unit
  | maxAttempts : Setting Nat
  | initialDelay : Setting Nat
  | maxDelay : Setting Nat
  | multiplier : Setting Float
  | jitter : Setting Float
  | statuses : Setting (List Nat)
  /-- a header, under its name as it is spelled -/
  | header (name : String) : Setting String

/-- What a configuration says about a setting, if anything. -/
def Setting.read {α : Type} : Setting α → Config → Option α
  | .baseUrl, config => config.baseUrl
  | .timeout, config => config.timeoutMillis
  | .userAgent, config => config.userAgent
  | .contentType, config => config.contentType
  | .limit, config => config.limit
  | .retry, config => config.retry.map fun _ => ()
  | .maxAttempts, config => config.retry.bind Retry.maxAttempts
  | .initialDelay, config => config.retry.bind Retry.initialDelayMillis
  | .maxDelay, config => config.retry.bind Retry.maxDelayMillis
  | .multiplier, config => config.retry.bind Retry.multiplier
  | .jitter, config => config.retry.bind Retry.jitter
  | .statuses, config => config.retry.bind Retry.statuses
  | .header name, config => config.headers.lookup name

/-- What the last of the layers says that says anything about a setting. -/
def Setting.last {α : Type} (setting : Setting α) (layers : List Config) : Option α :=
  (layers.filterMap setting.read).getLast?

/-- Layers on top of each other, the first at the bottom. -/
def stack (layers : List Config) : Config :=
  layers.foldl merge {}

/-- The headers of a configuration are in order. -/
def Sound (config : Config) : Prop :=
  Fields.Ordered config.headers

variable {α : Type} {lower upper config config' a b c : Config} {layers rest : List Config}

theorem sound_empty : Sound {} :=
  List.Pairwise.nil

theorem Sound.merge (h : Sound lower) (upper : Config) : Sound (lower.merge upper) :=
  ordered_headers_merge h upper

/-- A field of the retry settings is looked for in the upper layer first. -/
theorem bind_retry_merge {field : Retry → Option α} (lower upper : Config)
    (hfield : ∀ below above : Retry, field (below.merge above) = (field above).or (field below)) :
    (lower.merge upper).retry.bind field =
      (upper.retry.bind field).or (lower.retry.bind field) := by
  obtain ⟨_, _, _, _, _, below, _⟩ := lower
  obtain ⟨_, _, _, _, _, above, _⟩ := upper
  cases below with
  | none => cases above <;> simp [Config.merge]
  | some below =>
      cases above with
      | none => simp [Config.merge]
      | some above => exact hfield below above

/-- Of two layers the upper one is asked first, whatever else they say. -/
theorem read_merge (setting : Setting α) (lower : Config) (hupper : Sound upper) :
    setting.read (lower.merge upper) = (setting.read upper).or (setting.read lower) := by
  cases setting with
  | retry =>
      obtain ⟨_, _, _, _, _, below, _⟩ := lower
      obtain ⟨_, _, _, _, _, above, _⟩ := upper
      cases below <;> cases above <;> rfl
  | maxAttempts => exact bind_retry_merge lower upper fun _ _ => rfl
  | initialDelay => exact bind_retry_merge lower upper fun _ _ => rfl
  | maxDelay => exact bind_retry_merge lower upper fun _ _ => rfl
  | multiplier => exact bind_retry_merge lower upper fun _ _ => rfl
  | jitter => exact bind_retry_merge lower upper fun _ _ => rfl
  | statuses => exact bind_retry_merge lower upper fun _ _ => rfl
  | header name => exact Fields.lookup_overlay hupper name
  | baseUrl => rfl
  | timeout => rfl
  | userAgent => rfl
  | contentType => rfl
  | limit => rfl

theorem retry_ext {retry retry' : Option Retry}
    (hsome : (retry.map fun _ => ()) = retry'.map fun _ => ())
    (hattempts : retry.bind Retry.maxAttempts = retry'.bind Retry.maxAttempts)
    (hinitial : retry.bind Retry.initialDelayMillis = retry'.bind Retry.initialDelayMillis)
    (hmax : retry.bind Retry.maxDelayMillis = retry'.bind Retry.maxDelayMillis)
    (hmultiplier : retry.bind Retry.multiplier = retry'.bind Retry.multiplier)
    (hjitter : retry.bind Retry.jitter = retry'.bind Retry.jitter)
    (hstatuses : retry.bind Retry.statuses = retry'.bind Retry.statuses) : retry = retry' := by
  cases retry with
  | none =>
      cases retry' with
      | none => rfl
      | some _ => simp at hsome
  | some retry =>
      cases retry' with
      | none => simp at hsome
      | some retry' =>
          obtain ⟨_, _, _, _, _, _⟩ := retry
          obtain ⟨_, _, _, _, _, _⟩ := retry'
          simp_all

/-- Configurations that say the same about every setting are the same. -/
theorem ext_of_read (h : Sound config) (h' : Sound config')
    (hread : ∀ (α : Type) (setting : Setting α), setting.read config = setting.read config') :
    config = config' := by
  have hheaders : config.headers = config'.headers := by
    apply Fields.Ordered.ext h h'
    intro name
    exact hread _ (.header name)
  have hretry : config.retry = config'.retry :=
    retry_ext (hread _ .retry) (hread _ .maxAttempts) (hread _ .initialDelay)
      (hread _ .maxDelay) (hread _ .multiplier) (hread _ .jitter) (hread _ .statuses)
  have hbase := hread _ .baseUrl
  have htimeout := hread _ .timeout
  have hagent := hread _ .userAgent
  have htype := hread _ .contentType
  have hlimit := hread _ .limit
  obtain ⟨_, _, _, _, _, _, _⟩ := config
  obtain ⟨_, _, _, _, _, _, _⟩ := config'
  simp_all [Setting.read]

/-- It does not matter which two of three layers are merged first. -/
theorem merge_assoc (ha : Sound a) (hb : Sound b) (hc : Sound c) :
    (a.merge b).merge c = a.merge (b.merge c) := by
  apply ext_of_read ((ha.merge b).merge c) (ha.merge _)
  intro α setting
  rw [read_merge setting _ hc, read_merge setting _ hb, read_merge setting _ (hb.merge c),
    read_merge setting _ hc, Option.or_assoc]

theorem read_empty (setting : Setting α) : setting.read {} = none := by
  cases setting <;> rfl

theorem empty_merge (ha : Sound a) : ({} : Config).merge a = a := by
  apply ext_of_read (sound_empty.merge a) ha
  intro α setting
  rw [read_merge setting _ ha, read_empty, Option.or_none]

theorem merge_empty (ha : Sound a) : a.merge {} = a := by
  apply ext_of_read (ha.merge {}) ha
  intro α setting
  rw [read_merge setting _ sound_empty, read_empty, Option.none_or]

theorem sound_foldl (h : Sound lower) (layers : List Config) :
    Sound (layers.foldl merge lower) := by
  induction layers generalizing lower with
  | nil => exact h
  | cons layer rest ih => exact ih (h.merge layer)

theorem sound_stack (layers : List Config) : Sound (stack layers) :=
  sound_foldl sound_empty layers

theorem last_cons (setting : Setting α) (layer : Config) (rest : List Config) :
    setting.last (layer :: rest) = (setting.last rest).or (setting.read layer) := by
  cases hlayer : setting.read layer with
  | none => simp [Setting.last, hlayer]
  | some value =>
      simp only [Setting.last, List.filterMap_cons, hlayer]
      rw [← List.singleton_append, List.getLast?_append]
      rfl

theorem last_append (setting : Setting α) (layers rest : List Config) :
    setting.last (layers ++ rest) = (setting.last rest).or (setting.last layers) := by
  rw [Setting.last, List.filterMap_append, List.getLast?_append]
  rfl

/-- A stack says about a setting what the last of its layers says that says anything. -/
theorem read_stack (setting : Setting α) (hlayers : ∀ layer ∈ layers, Sound layer) :
    setting.read (stack layers) = setting.last layers := by
  have hbase : ∀ lower : Config, setting.read (layers.foldl merge lower) =
      (setting.last layers).or (setting.read lower) := by
    induction layers with
    | nil => exact fun _ => rfl
    | cons layer rest ih =>
        intro lower
        obtain ⟨hlayer, hrest⟩ := List.forall_mem_cons.mp hlayers
        rw [List.foldl_cons, ih hrest, read_merge setting lower hlayer, last_cons, Option.or_assoc]
  rw [stack, hbase, read_empty, Option.or_none]

theorem stack_append (hlayers : ∀ layer ∈ layers, Sound layer) (hrest : ∀ layer ∈ rest, Sound layer) :
    stack (layers ++ rest) = (stack layers).merge (stack rest) := by
  apply ext_of_read (sound_stack _) ((sound_stack layers).merge _)
  intro α setting
  have hall : ∀ layer ∈ layers ++ rest, Sound layer := by
    intro layer hlayer
    exact (List.mem_append.mp hlayer).elim (hlayers layer) (hrest layer)
  rw [read_merge setting _ (sound_stack rest), read_stack setting hall, read_stack setting hlayers,
    read_stack setting hrest, last_append]

/-- It does not matter how layers are grouped. -/
theorem stack_flatten {groups : List (List Config)}
    (hgroups : ∀ group ∈ groups, ∀ layer ∈ group, Sound layer) :
    stack (groups.map stack) = stack groups.flatten := by
  induction groups with
  | nil => rfl
  | cons group rest ih =>
      obtain ⟨hgroup, hrest⟩ := List.forall_mem_cons.mp hgroups
      have hflat : ∀ layer ∈ rest.flatten, Sound layer := by
        intro layer hlayer
        obtain ⟨other, hother, hmem⟩ := List.mem_flatten.mp hlayer
        exact hrest other hother layer hmem
      have hstacks : ∀ layer ∈ rest.map stack, Sound layer := by
        intro layer hlayer
        obtain ⟨other, _, rfl⟩ := List.mem_map.mp hlayer
        exact sound_stack other
      have hone : stack [stack group] = stack group := empty_merge (sound_stack group)
      have hsingle : ∀ layer ∈ [stack group], Sound layer := by
        intro layer hlayer
        rw [List.mem_singleton.mp hlayer]
        exact sound_stack group
      rw [List.map_cons, ← List.singleton_append, stack_append hsingle hstacks, hone, ih hrest,
        List.flatten_cons, stack_append hgroup hflat]

end Config
end Courier
