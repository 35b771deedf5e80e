import Courier.Proofs.FlatRecord
import Courier.Proofs.WholeNumber
import Courier.Xml.Decode
/-!
Reading flat records.  The element that is written for a record has as its nodes those of its fields,
one after the other; each child is read as the value of its field, and when all have been read the
record is complete.
-/
namespace Courier

namespace Xml

/-! ### Values -/

/-- The number that has been read, if one has. -/
def numberOr (wrong : Decoder Json) : Except Decimal.IntegerError Nat → Decoder Json
  | .ok n => pure (.nat n)
  | .error _ => wrong

theorem plain_unsigned (bits : Nat) (s : String) :
    Decoder.plain (.unsigned bits) s =
      numberOr (Decoder.refuse (.wrongKind (.text s) (Json.Shape.unsigned bits).expected))
        (Decimal.readNat (Nat.pow 2 bits - 1) s) :=
  rfl

theorem FlatValue.plain_written (v : FlatValue) (source : Source) :
    Decoder.plain v.shape v.written source = .ok (v.json, source) := by
  cases v with
  | text s trimmed => rfl
  | unsigned bits n fits =>
      have hread : Decimal.readNat (Nat.pow 2 bits - 1) (String.ofList (Nat.toDigits 10 n)) =
          .ok n :=
        Decimal.readNat_toDigits (Nat.le_sub_one_of_lt fits)
      rw [shape, written, plain_unsigned, hread]
      rfl

/-! ### Nodes -/

/-- The nodes that tokens are read as. -/
def nodesOf (tokens : List Token) : List Node :=
  Source.joinPieces [] (Source.trimStarts true (tokens.flatMap fun t => Source.partsOf t.event))

theorem ofScan_eq (tokens : List Token) (defect : Option Defect) :
    Source.ofScan ⟨tokens, defect⟩ = ⟨nodesOf tokens, defect⟩ :=
  rfl

section Tokens

variable (name tag : List Char) (before after before' after' : Nat) (tokens : List Token)

theorem nodesOf_start :
    nodesOf (⟨.start name tag, before, after⟩ :: tokens) = .start name tag :: nodesOf tokens :=
  rfl

theorem nodesOf_stop :
    nodesOf (⟨.stop name, before, after⟩ :: tokens) = .stop name :: nodesOf tokens :=
  rfl

theorem nodesOf_empty :
    nodesOf (⟨.empty name tag, before, after⟩ :: tokens) =
      .start name tag :: .stop name :: nodesOf tokens :=
  rfl

variable {raw : List Char}

theorem trimStarts_text (hraw : raw ≠ []) (hfront : raw.dropWhile Text.isMarkupBlank = raw)
    (parts : List Source.Part) :
    Source.trimStarts true (.piece (.raw raw) :: parts) =
      .piece (.raw raw) :: Source.trimStarts false parts := by
  rw [Source.trimStarts]
  simp [hfront, hraw]

theorem textNode_text (hraw : raw ≠ []) (hback : trimEnd raw = raw) :
    Source.textNode [.raw raw] = [.text [.raw raw]] := by
  rw [Source.textNode, Source.trimLast, hback]
  split
  · rename_i h
    cases h
  · rename_i h
    cases h
    exact absurd rfl hraw
  · rfl

/-- A text between tags with no blanks at its ends is a node of its own. -/
theorem nodesOf_text (hraw : raw ≠ []) (hfront : raw.dropWhile Text.isMarkupBlank = raw)
    (hback : trimEnd raw = raw) :
    nodesOf (⟨.text raw, before, after⟩ :: ⟨.stop name, before', after'⟩ :: tokens) =
      .text [.raw raw] :: .stop name :: nodesOf tokens := by
  have htrim := trimStarts_text hraw hfront
    (.node (.stop name) :: tokens.flatMap fun t => Source.partsOf t.event)
  have hjoin : nodesOf (⟨.text raw, before, after⟩ :: ⟨.stop name, before', after'⟩ :: tokens) =
      Source.textNode [.raw raw] ++ .stop name :: nodesOf tokens :=
    congrArg (Source.joinPieces []) htrim
  rw [hjoin, textNode_text hraw hback]
  rfl

end Tokens

/-- What trimming leaves as it is has no blanks at either end. -/
theorem ends_of_stripBy {cs : List Char} (h : Text.stripBy Text.isMarkupBlank cs = cs) :
    cs.dropWhile Text.isMarkupBlank = cs ∧ trimEnd cs = cs := by
  have hfront : cs.dropWhile Text.isMarkupBlank = cs := by
    refine (List.dropWhile_suffix _).eq_of_length_le ?_
    have hlength := congrArg List.length h
    rw [Text.stripBy, List.length_reverse] at hlength
    have hless := (List.dropWhile_sublist (l := (cs.dropWhile Text.isMarkupBlank).reverse)
      Text.isMarkupBlank).length_le
    rw [List.length_reverse] at hless
    omega
  refine ⟨hfront, ?_⟩
  rw [Text.stripBy, hfront] at h
  exact h

def FlatField.nodes (f : FlatField) : List Node :=
  .start f.name.toList f.name.toList ::
    ((if f.value.written.isEmpty then [] else [.text [.raw (spell f.value.glyphs)]]) ++
      [.stop f.name.toList])

theorem bare_inside (name : Name) : (Tag.bare name).inside = name.chars := by
  simp [Tag.inside, Tag.bare, Blanks.none]

theorem nodesOf_fields {fields : List FlatField} {tree : Content} (h : FieldElements fields tree)
    (position : Nat) (tokens : List Token) :
    nodesOf (tree.tokens position ++ tokens) =
      fields.flatMap FlatField.nodes ++ nodesOf tokens := by
  induction h generalizing position with
  | nil => rfl
  | @cons f name hname fields rest hrest ih =>
      rw [List.flatMap_cons, FlatField.nodes, bareElement, isEmpty_glyphs, ← hname]
      by_cases hempty : f.value.written.isEmpty = true
      · rw [if_pos hempty, if_pos hempty]
        simp only [Content.tokens, Leaf.event, bare_inside, textTokens, spell_nil, List.isEmpty_nil,
          if_true, List.nil_append, List.cons_append]
        rw [nodesOf_empty, ih]
        rfl
      · have hsome : spell f.value.glyphs ≠ [] := by
          rw [ne_eq, ← List.isEmpty_iff, isEmpty_spell, isEmpty_glyphs]
          exact hempty
        have htrim : Text.stripBy Text.isMarkupBlank (spell f.value.glyphs) =
            spell f.value.glyphs := by
          rw [stripBy_spell, FlatValue.trimGlyphs_glyphs]
        obtain ⟨hfront, hback⟩ := ends_of_stripBy htrim
        rw [if_neg hempty, if_neg hempty]
        simp only [Content.tokens, bare_inside, textTokens, spell_nil, List.isEmpty_nil, if_true,
          List.nil_append, List.cons_append, List.isEmpty_iff, if_neg hsome]
        rw [nodesOf_start, nodesOf_text _ _ _ _ _ _ hsome hfront hback, ih]
        rfl

/-! ### Reading -/

open Decoder (Upcoming)

section Steps

variable {nodes : List Node} {defect : Option Defect} {name tag : List Char}

theorem run_pure {α : Type} (a : α) (source : Source) :
    (pure a : Decoder α) source = .ok (a, source) :=
  rfl

/-- A step that succeeds hands its value and the rest of the source to the next one. -/
theorem run_bind {α β : Type} {first : Decoder α} {next : α → Decoder β} {source rest : Source}
    {a : α} (h : first source = .ok (a, rest)) : (first >>= next) source = next a rest := by
  have hbind : (first >>= next) source = first source >>= fun result => next result.1 result.2 :=
    rfl
  rw [hbind, h]
  rfl

/-- An element without content has the empty text. -/
theorem textValue_empty :
    Decoder.textValue ⟨.start name tag :: .stop name :: nodes, defect⟩ =
      .ok ("", ⟨nodes, defect⟩) :=
  rfl

theorem textValue_text {pieces : List Piece} {s : String}
    (h : Decoder.resolvePieces pieces = .ok s) :
    Decoder.textValue ⟨.start name tag :: .text pieces :: .stop name :: nodes, defect⟩ =
      .ok (s, ⟨nodes, defect⟩) := by
  have hnext : Decoder.next ⟨.text pieces :: .stop name :: nodes, defect⟩ =
      .ok (.text s, ⟨.stop name :: nodes, defect⟩) := by
    have hpeek : Decoder.peek ⟨.text pieces :: .stop name :: nodes, defect⟩ =
        .ok (.text s, ⟨.text pieces :: .stop name :: nodes, defect⟩) := by
      simp only [Decoder.peek, h]
      rfl
    rw [Decoder.next, run_bind hpeek]
    rfl
  have htext : Decoder.elementText name ⟨.text pieces :: .stop name :: nodes, defect⟩ =
      .ok (s, ⟨nodes, defect⟩) := by
    rw [Decoder.elementText, run_bind hnext]
    rfl
  exact htext

theorem resolvePieces_spell (glyphs : List Glyph) :
    Decoder.resolvePieces [.raw (spell glyphs)] = .ok (String.ofList (glyphs.map Glyph.char)) := by
  rw [Decoder.resolvePieces, List.mapM_cons, Decoder.resolvePiece, unescape_spell]
  simp [Except.mapError, Except.map, bind, Except.bind, pure, Except.pure]

theorem value_eq (v : FlatValue) (fuel : Nat) :
    Decoder.value v.shape (fuel + 1) =
      Decoder.textValue >>= fun s => Decoder.plain v.shape s := by
  cases v <;> rfl

/-- The element of a field is read as the value of the field. -/
theorem value_field (f : FlatField) (fuel : Nat) :
    Decoder.value f.value.shape (fuel + 1) ⟨f.nodes ++ nodes, defect⟩ =
      .ok (f.value.json, ⟨nodes, defect⟩) := by
  have htext : Decoder.textValue ⟨f.nodes ++ nodes, defect⟩ =
      .ok (f.value.written, ⟨nodes, defect⟩) := by
    rw [FlatField.nodes]
    by_cases hempty : f.value.written.isEmpty = true
    · rw [if_pos hempty, String.isEmpty_iff.mp hempty]
      exact textValue_empty
    · rw [if_neg hempty, ← f.value.map_char_glyphs]
      exact textValue_text (resolvePieces_spell f.value.glyphs)
  rw [value_eq, run_bind htext]
  exact f.value.plain_written _

variable {parent : List Char} {shapes : List Json.Shape.Field} {found : List (String × Json)}

/-- A child that is a field is read as the value of it. -/
theorem knownChildren_field {f : FlatField} (hname : IsFieldName f.name) {absence : Json.Absence}
    (hlookup : shapes.lookup f.name = some (f.value.shape, absence))
    (hfresh : found.lookup f.name = none) (fuel : Nat) :
    Decoder.knownChildren parent shapes found (fuel + 2) ⟨f.nodes ++ nodes, defect⟩ =
      Decoder.knownChildren parent shapes ((f.name, f.value.json) :: found) (fuel + 1)
        ⟨nodes, defect⟩ := by
  have hlocal : localName f.name.toList = f.name.toList := by
    have hcolon : ':' ∉ f.name.toList := fun hmem => absurd (hname.2 ':' hmem) (by decide)
    rw [localName, if_neg (by simpa using hcolon)]
  have hpeek : Decoder.peek ⟨f.nodes ++ nodes, defect⟩ =
      .ok (.start f.name.toList f.name.toList, ⟨f.nodes ++ nodes, defect⟩) :=
    rfl
  rw [Decoder.knownChildren, run_bind hpeek]
  simp only [hlocal, String.ofList_toList, hlookup, hfresh, Option.isSome_none,
    Bool.false_eq_true, if_false]
  rw [run_bind (value_field f fuel)]

theorem knownChildren_stop (fuel : Nat) :
    Decoder.knownChildren parent shapes found (fuel + 1) ⟨.stop name :: nodes, defect⟩ =
      .ok (found, ⟨nodes, defect⟩) :=
  rfl

/-- The children of a record are read as its fields, the last one in front. -/
theorem knownChildren_fields {fields : List FlatField}
    (hnames : ∀ f ∈ fields, IsFieldName f.name)
    (hlookup : ∀ f ∈ fields, shapes.lookup f.name = some (f.value.shape, .refused))
    (hfresh : ∀ f ∈ fields, found.lookup f.name = none)
    (hdistinct : (fields.map FlatField.name).Nodup) (fuel : Nat) :
    Decoder.knownChildren parent shapes found (fields.length + fuel + 1)
        ⟨fields.flatMap FlatField.nodes ++ .stop name :: nodes, defect⟩ =
      .ok ((fields.map fun f => (f.name, f.value.json)).reverse ++ found, ⟨nodes, defect⟩) := by
  induction fields generalizing found with
  | nil => exact knownChildren_stop _
  | cons f fields ih =>
      rw [List.map_cons, List.nodup_cons] at hdistinct
      have hfuel : (f :: fields).length + fuel + 1 = (fields.length + fuel) + 2 := by
        rw [List.length_cons]
        omega
      have hlater : ∀ g ∈ fields, ((f.name, f.value.json) :: found).lookup g.name = none := by
        intro g hg
        have hne : g.name ≠ f.name := by
          intro heq
          exact hdistinct.1 (heq ▸ List.mem_map_of_mem hg)
        rw [lookup_cons_eq, if_neg hne]
        exact hfresh g (List.mem_cons_of_mem f hg)
      rw [hfuel, List.flatMap_cons, List.append_assoc,
        knownChildren_field (hnames f List.mem_cons_self) (hlookup f List.mem_cons_self)
          (hfresh f List.mem_cons_self),
        ih (fun g hg => hnames g (List.mem_cons_of_mem f hg))
          (fun g hg => hlookup g (List.mem_cons_of_mem f hg)) hlater hdistinct.2]
      simp

end Steps

theorem lookup_map_of_mem {β : Type} (entry : FlatField → β) {fields : List FlatField}
    (hdistinct : (fields.map FlatField.name).Nodup) {f : FlatField} (hf : f ∈ fields) :
    (fields.map fun g => (g.name, entry g)).lookup f.name = some (entry f) := by
  induction fields with
  | nil => cases hf
  | cons g fields ih =>
      rw [List.map_cons, List.nodup_cons] at hdistinct
      rw [List.map_cons, lookup_cons_eq]
      rcases List.mem_cons.mp hf with rfl | hf
      · exact if_pos rfl
      · have hne : f.name ≠ g.name := by
          intro heq
          exact hdistinct.1 (heq ▸ List.mem_map_of_mem hf)
        rw [if_neg hne, ih hdistinct.2 hf]

/-- Steps that leave the source as it is give a list of values one by one. -/
theorem mapM_eq {α β : Type} {step : α → Decoder β} {value : α → β} {source : Source}
    {as : List α} (h : ∀ a ∈ as, step a source = .ok (value a, source)) :
    as.mapM step source = .ok (as.map value, source) := by
  induction as with
  | nil => rfl
  | cons a as ih =>
      have hrest := ih fun b hb => h b (List.mem_cons_of_mem a hb)
      rw [List.mapM_cons, run_bind (h a List.mem_cons_self), run_bind hrest]
      rfl

/-- A record of which every field has been found is complete. -/
theorem complete_fields {fields : List FlatField} {found : List (String × Json)}
    (hfound : ∀ f ∈ fields, found.lookup f.name = some f.value.json) (source : Source) :
    Decoder.complete (fields.map fun f => (f.name, f.value.shape, .refused)) found source =
      .ok (fields.map fun f => (f.name, f.value.json), source) := by
  rw [Decoder.complete, List.mapM_map]
  refine mapM_eq fun f hf => ?_
  simp only [Function.comp_apply, hfound f hf]
  rfl

/-- A tag with nothing but a name has no attributes. -/
theorem read_name (name : Name) : Attributes.read name.chars = ⟨[], none⟩ := by
  have hname : tagName name.chars = name.chars := by
    have h := (Tag.bare name).tagName_inside
    rwa [bare_inside] at h
  rw [Attributes.read, hname, List.drop_length]
  rfl

/-- The nodes of the element of a record. -/
def recordNodes (name : Name) (fields : List FlatField) : List Node :=
  .start name.chars name.chars ::
    (fields.flatMap FlatField.nodes ++ [.stop name.chars])

theorem nodesOf_recordElement (name : Name) {fields : List FlatField} {inner : Content}
    (h : FieldElements fields inner) :
    nodesOf ((recordElement name inner).tokens 0) = recordNodes name fields := by
  rw [recordElement, recordNodes]
  split
  · rename_i hempty
    have hnone : fields = [] := by
      cases h with
      | nil => rfl
      | cons hname hrest =>
          rw [print_bareElement, List.isEmpty_iff, List.append_eq_nil_iff] at hempty
          split at hempty
          · cases hempty.1
          · cases hempty.1
    subst hnone
    simp only [Content.tokens, Leaf.event, bare_inside, textTokens, spell_nil, List.isEmpty_nil,
      if_true, List.nil_append]
    rfl
  · have hfields := nodesOf_fields h
    simp only [Content.tokens, bare_inside, textTokens, spell_nil, List.isEmpty_nil, if_true,
      List.nil_append]
    rw [nodesOf_start, hfields, nodesOf_stop]
    rfl

theorem length_le_length_nodes (fields : List FlatField) :
    fields.length ≤ (fields.flatMap FlatField.nodes).length := by
  induction fields with
  | nil => exact Nat.le_refl 0
  | cons f fields ih =>
      rw [List.flatMap_cons, List.length_append, FlatField.nodes, List.length_cons,
        List.length_cons]
      omega

namespace FlatRecord

variable (r : FlatRecord)

/-- The element of a record is read as the record. -/
theorem value_record (name : Name) (fuel : Nat) (defect : Option Defect) :
    Decoder.value r.shape (r.fields.length + fuel + 2) ⟨recordNodes name r.fields, defect⟩ =
      .ok (r.json, ⟨[], defect⟩) := by
  let entries := r.fields.map fun f => (f.name, f.value.json)
  have hnext : Decoder.next ⟨recordNodes name r.fields, defect⟩ =
      .ok (.start name.chars name.chars,
        ⟨r.fields.flatMap FlatField.nodes ++ [.stop name.chars], defect⟩) :=
    rfl
  have hchildren := @knownChildren_fields [] defect name.chars name.chars
    (r.fields.map fun f => (f.name, f.value.shape, .refused)) [] r.fields r.fieldsNamed
    (fun f hf => lookup_map_of_mem (fun f => (f.value.shape, Json.Absence.refused)) r.distinct hf)
    (fun _ _ => rfl) r.distinct fuel
  have hfound : ∀ f ∈ r.fields, (entries.reverse ++ []).lookup f.name = some f.value.json := by
    intro f hf
    have hdistinct : (r.fields.reverse.map FlatField.name).Nodup := by
      rw [List.map_reverse]
      exact (List.reverse_perm _).nodup_iff.mpr r.distinct
    have hlookup := lookup_map_of_mem (fun f => f.value.json) hdistinct (List.mem_reverse.mpr hf)
    rwa [List.map_reverse, ← List.append_nil (List.reverse _)] at hlookup
  have hcomplete := complete_fields hfound ⟨[], defect⟩
  rw [shape, Decoder.value]
  dsimp only
  rw [run_bind hnext]
  simp only [read_name, Decoder.knownAttributes, Decoder.failOn]
  rw [run_bind (run_pure _ _), run_bind (run_pure _ _), run_bind hchildren, run_bind hcomplete]
  rfl

/-- What is written for a record is read back as the record. -/
theorem readAs_write {text : String} (h : write r.datum = .ok text) :
    readAs r.shape text.toList = .ok r.json := by
  obtain ⟨name, inner, hinner, hprint⟩ := r.exists_tree_of_write h
  have hscan : scan text.toList = ⟨(recordElement name inner).tokens 0, none⟩ := by
    rw [← hprint]
    refine (recordElement name inner).scan_print ?_
    rw [print_recordElement, assembled]
    split <;> rfl
  have hsource : Source.ofScan (scan text.toList) = ⟨recordNodes name r.fields, none⟩ := by
    rw [hscan, ofScan_eq, nodesOf_recordElement name hinner]
  obtain ⟨fuel, hfuel⟩ : ∃ fuel, 2 * (recordNodes name r.fields).length + 4 =
      r.fields.length + fuel + 2 := by
    have hlength := length_le_length_nodes r.fields
    refine ⟨2 * (recordNodes name r.fields).length + 2 - r.fields.length, ?_⟩
    rw [recordNodes, List.length_cons, List.length_append]
    omega
  rw [readAs, hsource]
  simp only [hfuel]
  rw [StateT.run, r.value_record name fuel none]
  rfl

end FlatRecord

end Xml

end Courier
