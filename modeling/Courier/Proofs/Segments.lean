import Courier.Proofs.Escapes
import Courier.Request
import Mathlib.Data.List.DropRight
/-!
Paths and their segments.  A segment that was read needs no escape, has no slash in it and is not made
of dots; so a path that was read is read again from its text as the same segments, and when a text is
put behind it, what it says is taken in behind these segments.
-/
namespace Courier

namespace Text

variable {α : Type} {p : α → Bool} {l part : List α} {a : α}

theorem splitList_ne_nil (p : α → Bool) (l : List α) : splitList p l ≠ [] := by
  induction l with
  | nil => simp [splitList]
  | cons a l ih =>
      rw [splitList]
      split_ifs
      · simp
      · cases hrest : splitList p l with
        | nil => simp
        | cons part parts => simp

/-- No separator is left in the parts. -/
theorem eq_false_of_mem_splitList (hpart : part ∈ splitList p l) (ha : a ∈ part) : p a = false := by
  induction l generalizing part with
  | nil =>
      rw [splitList, List.mem_singleton] at hpart
      simp [hpart] at ha
  | cons b l ih =>
      rw [splitList] at hpart
      by_cases hb : p b = true
      · rw [if_pos hb, List.mem_cons] at hpart
        rcases hpart with rfl | hpart
        · simp at ha
        · exact ih hpart ha
      · rw [if_neg hb] at hpart
        cases hrest : splitList p l with
        | nil => exact absurd hrest (splitList_ne_nil p l)
        | cons first parts =>
            rw [hrest] at hpart ih
            rcases List.mem_cons.mp hpart with rfl | hpart
            · rcases List.mem_cons.mp ha with rfl | ha
              · simpa using hb
              · exact ih List.mem_cons_self ha
            · exact ih (List.mem_cons_of_mem _ hpart) ha

end Text

namespace Url

/-- A segment in its one form. -/
structure IsSettled (segment : String) : Prop where
  spared : ∀ c ∈ segment.toList, Percent.spares Percent.inPath c = true
  no_slash : ∀ c ∈ segment.toList, isSlash true c = false
  not_dot : isSegmentDot segment = false
  not_dotDot : isSegmentDotDot segment = false

theorem isSettled_empty : IsSettled "" where
  spared := by simp
  no_slash := by simp
  not_dot := by decide
  not_dotDot := by decide

theorem isSlash_of_mem_escapeChars {c : Char} (h : c ∈ Percent.escapeChars) :
    isSlash true c = false := by
  have hall : Percent.escapeChars.all (fun c => !isSlash true c) = true := by decide
  simpa using List.all_eq_true.mp hall c h

variable {before parts : List String} {raw : List Char} {last : Bool} {segment : String}

/-- A segment in its one form is taken in as it is. -/
theorem pushSegment_of_settled (h : IsSettled segment) :
    pushSegment before segment.toList last = segment :: before := by
  simp only [pushSegment, Percent.encode_of_spares h.spared, String.ofList_toList, h.not_dotDot,
    h.not_dot, Bool.false_eq_true, if_false]

/-- What is taken in is brought to that form. -/
theorem settled_pushSegment (hbefore : ∀ s ∈ before, IsSettled s)
    (hraw : ∀ c ∈ raw, isSlash true c = false) :
    ∀ s ∈ pushSegment before raw last, IsSettled s := by
  have hfewer : ∀ s ∈ before.drop 1, IsSettled s := fun s hs => hbefore s (List.mem_of_mem_drop hs)
  rw [pushSegment]
  split_ifs with hdotDot hlast hdot hlast
  · exact List.forall_mem_cons.mpr ⟨isSettled_empty, hfewer⟩
  · exact hfewer
  · exact List.forall_mem_cons.mpr ⟨isSettled_empty, hbefore⟩
  · exact hbefore
  · refine List.forall_mem_cons.mpr ⟨⟨?_, ?_, by simpa using hdot, by simpa using hdotDot⟩, hbefore⟩
    · intro c hc
      rw [String.toList_ofList] at hc
      exact Percent.spares_of_mem_encode Percent.settles_inPath hc
    · intro c hc
      rw [String.toList_ofList] at hc
      rcases Percent.mem_or_of_mem_encode Percent.settles_inPath hc with hthere | hescape
      · exact hraw c hthere
      · exact isSlash_of_mem_escapeChars hescape

theorem settled_pushSegments {raws : List (List Char)} (hbefore : ∀ s ∈ before, IsSettled s)
    (hraws : ∀ raw ∈ raws, ∀ c ∈ raw, isSlash true c = false) :
    ∀ s ∈ pushSegments before raws, IsSettled s := by
  induction before, raws using pushSegments.induct with
  | case1 before => exact hbefore
  | case2 before raw => exact settled_pushSegment hbefore (hraws raw List.mem_cons_self)
  | case3 before raw rest hrest ih =>
      obtain ⟨hraw, hrest⟩ := List.forall_mem_cons.mp hraws
      rw [pushSegments]
      · exact ih (settled_pushSegment hbefore hraw) hrest
      · assumption

/-- The last segment stays, if only as an empty one. -/
theorem pushSegments_ne_nil {raws : List (List Char)} (hraws : raws ≠ []) :
    pushSegments before raws ≠ [] := by
  induction before, raws using pushSegments.induct with
  | case1 before => exact absurd rfl hraws
  | case2 before raw =>
      simp only [pushSegments, pushSegment, if_true]
      split_ifs <;> simp
  | case3 before raw rest hrest ih =>
      rw [pushSegments]
      · exact ih fun h => hrest h
      · assumption

theorem settled_readSegments (cs : List Char) : ∀ s ∈ readSegments true cs, IsSettled s := by
  intro s hs
  rw [readSegments, List.mem_reverse] at hs
  refine settled_pushSegments (by simp) ?_ s hs
  intro raw hraw c hc
  exact Text.eq_false_of_mem_splitList hraw hc

theorem readSegments_ne_nil (cs : List Char) : readSegments true cs ≠ [] := by
  rw [readSegments, List.reverse_ne_nil_iff]
  exact pushSegments_ne_nil (Text.splitList_ne_nil _ _)

theorem settled_readPath (cs : List Char) :
    readPath true cs ≠ [] ∧ ∀ s ∈ readPath true cs, IsSettled s := by
  cases cs with
  | nil =>
      change [""] ≠ [] ∧ ∀ s ∈ [""], IsSettled s
      simp [isSettled_empty]
  | cons c cs =>
      rw [readPath]
      split_ifs
      · exact ⟨readSegments_ne_nil cs, settled_readSegments cs⟩
      · exact ⟨readSegments_ne_nil (c :: cs), settled_readSegments (c :: cs)⟩

/-! ### Reading a path from its text -/

theorem pushSegments_cons (before : List String) (raw : List Char) {rest : List (List Char)}
    (hrest : rest ≠ []) :
    pushSegments before (raw :: rest) = pushSegments (pushSegment before raw false) rest := by
  cases rest with
  | nil => exact absurd rfl hrest
  | cons next rest => rw [pushSegments]; simp

/-- Segments in their one form are taken in as they are, whatever follows. -/
theorem pushSegments_of_settled (hparts : ∀ s ∈ parts, IsSettled s) {rest : List (List Char)}
    (hrest : rest ≠ []) :
    pushSegments before (parts.map String.toList ++ rest) =
      pushSegments (parts.reverse ++ before) rest := by
  induction parts generalizing before with
  | nil => rfl
  | cons part parts ih =>
      obtain ⟨hpart, hparts⟩ := List.forall_mem_cons.mp hparts
      rw [List.map_cons, List.cons_append, pushSegments_cons _ _ (by simp [hrest]),
        pushSegment_of_settled hpart, ih hparts, List.reverse_cons, List.append_assoc,
        List.singleton_append]

/-- The characters of a path. -/
def slashedChars (parts : List String) : List Char :=
  parts.flatMap fun part => '/' :: part.toList

theorem toList_slashed (parts : List String) : (slashed parts).toList = slashedChars parts := by
  simp [slashed, slashedChars, List.flatMap_map]

theorem slashedChars_concat (front : List String) (segment : String) :
    slashedChars (front ++ [segment]) = slashedChars front ++ '/' :: segment.toList := by
  simp [slashedChars]

theorem splitList_slashedChars (hparts : ∀ s ∈ parts, IsSettled s) {segment : String}
    (hsegment : IsSettled segment) (rest : List Char) :
    Text.splitList (isSlash true) (segment.toList ++ slashedChars parts ++ '/' :: rest) =
      (segment :: parts).map String.toList ++ Text.splitList (isSlash true) rest := by
  induction parts generalizing segment with
  | nil =>
      rw [slashedChars, List.flatMap_nil, List.append_nil,
        Text.splitList_append_cons hsegment.no_slash rfl]
      rfl
  | cons part parts ih =>
      obtain ⟨hpart, hparts⟩ := List.forall_mem_cons.mp hparts
      have hcons : segment.toList ++ slashedChars (part :: parts) ++ '/' :: rest =
          segment.toList ++ '/' :: (part.toList ++ slashedChars parts ++ '/' :: rest) := by
        simp [slashedChars]
      rw [hcons, Text.splitList_append_cons hsegment.no_slash rfl, ih hparts hpart]
      rfl

/-- What stands behind a path is taken in behind its segments. -/
theorem readPath_slashedChars (hparts : ∀ s ∈ parts, IsSettled s) (rest : List Char) :
    readPath true (slashedChars parts ++ '/' :: rest) =
      (pushSegments parts.reverse (Text.splitList (isSlash true) rest)).reverse := by
  have hslash : isSlash true '/' = true := rfl
  cases parts with
  | nil =>
      change readPath true ('/' :: rest) = _
      simp only [readPath, hslash, if_true, readSegments, List.reverse_nil]
  | cons part parts =>
      obtain ⟨hpart, hrest⟩ := List.forall_mem_cons.mp hparts
      have hcons : slashedChars (part :: parts) ++ '/' :: rest =
          '/' :: (part.toList ++ slashedChars parts ++ '/' :: rest) := by
        simp [slashedChars]
      rw [hcons]
      simp only [readPath, hslash, if_true, readSegments]
      rw [splitList_slashedChars hrest hpart, pushSegments_of_settled hparts
        (Text.splitList_ne_nil _ _), List.append_nil]

/-- A path is read from its text. -/
theorem readPath_toList_slashed (hne : parts ≠ []) (hparts : ∀ s ∈ parts, IsSettled s) :
    readPath true (slashed parts).toList = parts := by
  induction parts using List.reverseRecOn with
  | nil => exact absurd rfl hne
  | append_singleton front segment _ =>
      have hfront : ∀ s ∈ front, IsSettled s := fun s hs => hparts s (List.mem_append_left _ hs)
      have hsegment := hparts segment (by simp)
      rw [toList_slashed, slashedChars_concat, readPath_slashedChars hfront,
        Text.splitList_of_forall hsegment.no_slash, pushSegments, pushSegment_of_settled hsegment,
        List.reverse_cons, List.reverse_reverse]

/-! ### Putting a text behind a path -/

/-- The segments up to the last one that has something in it. -/
def trunk (parts : List String) : List String :=
  parts.rdropWhile (·.isEmpty)

theorem mem_of_mem_trunk (h : segment ∈ trunk parts) : segment ∈ parts :=
  (List.rdropWhile_prefix _ _).subset h

theorem rdropWhile_slashedChars (hparts : ∀ s ∈ parts, IsSettled s) :
    (slashedChars parts).rdropWhile (· == '/') = slashedChars (trunk parts) := by
  induction parts using List.reverseRecOn with
  | nil => rfl
  | append_singleton front segment ih =>
      have hfront : ∀ s ∈ front, IsSettled s := fun s hs => hparts s (List.mem_append_left _ hs)
      have hsegment := hparts segment (by simp)
      rw [slashedChars_concat, trunk]
      rcases List.eq_nil_or_concat segment.toList with hempty | ⟨cs, c, hchars⟩
      · -- nothing stands behind the last slash, so it goes
        have hsegment : segment.isEmpty = true := by simpa using hempty
        rw [hempty, List.rdropWhile_concat_pos _ _ _ rfl,
          List.rdropWhile_concat_pos _ _ _ hsegment, ih hfront, trunk]
      · have hc : ¬ (c == '/') = true := by
          have hslash := hsegment.no_slash c (by rw [hchars]; simp)
          intro heq
          rw [beq_iff_eq] at heq
          rw [heq] at hslash
          exact absurd hslash (by decide)
        have hfull : ¬ segment.isEmpty = true := by
          intro hempty
          rw [String.isEmpty_iff] at hempty
          simp [hempty] at hchars
        have hassoc : slashedChars front ++ '/' :: segment.toList =
            slashedChars front ++ '/' :: cs ++ [c] := by simp [hchars]
        rw [hassoc, List.rdropWhile_concat_neg (· == '/') _ _ hc,
          List.rdropWhile_concat_neg _ _ _ hfull, slashedChars_concat, hassoc]

theorem dropTrailingSlashes_slashed (hparts : ∀ s ∈ parts, IsSettled s) :
    dropTrailingSlashes (slashed parts) = slashed (trunk parts) := by
  apply String.toList_injective
  rw [toList_slashed, ← rdropWhile_slashedChars hparts, ← toList_slashed]
  exact String.toList_ofList

theorem isSkipped_of_lt {c : Char} (h : 0x20 < c.toNat) : isSkipped c = false := by
  by_contra hskipped
  simp only [isSkipped, Bool.not_eq_false, Bool.or_eq_true, beq_iff_eq] at hskipped
  rcases hskipped with (rfl | rfl) | rfl
  · exact absurd h (by decide)
  · exact absurd h (by decide)
  · exact absurd h (by decide)

/-- No character of a path in its one form is passed over. -/
theorem filter_slashedChars (hparts : ∀ s ∈ parts, IsSettled s) :
    (slashedChars parts).filter (fun c => !isSkipped c) = slashedChars parts := by
  apply List.filter_eq_self.mpr
  intro c hc
  obtain ⟨segment, hsegment, hc⟩ := List.mem_flatMap.mp hc
  rcases List.mem_cons.mp hc with rfl | hc
  · rfl
  · have hspared := (hparts segment hsegment).spared c hc
    rw [isSkipped_of_lt (Percent.lt_of_spares_inPath hspared)]
    rfl

/-- The path at which a request path is found. -/
def pathBelow (base : Url) (path : String) : Path :=
  if dropLeadingSlashes path = "" then base.path
  else (base.setPath (dropTrailingSlashes base.pathText ++ "/" ++ dropLeadingSlashes path)).path

/-- The query with more pairs at its end, if there are any. -/
def queryWith (base : Url) (pairs : Pairs) : Option String :=
  if pairs.isEmpty then base.query else some (Query.append base.query pairs)

theorem setPath_eq (url : Url) (text : String) :
    url.setPath text = { url with path := (url.setPath text).path } := by
  unfold setPath
  cases url.path with
  | flat _ => rfl
  | segments _ => rfl

/-- Only the path and the query of the base change. -/
theorem below_eq (base : Url) (path : String) (pairs : Pairs) :
    base.below path pairs =
      { base with path := base.pathBelow path, query := base.queryWith pairs } := by
  simp only [below, pathBelow, queryWith, String.isEmpty_iff]
  by_cases hrelative : dropLeadingSlashes path = ""
  · simp only [hrelative, if_true]
    split_ifs <;> rfl
  · simp only [hrelative, if_false]
    rw [setPath_eq]
    split_ifs <;> rfl

/-- The characters of a request path that count, without the slashes in front. -/
def pathChars (path : String) : List Char :=
  (dropLeadingSlashes path).toList.filter fun c => !isSkipped c

/-- A request path is taken in behind the trunk of the base path. -/
theorem pathBelow_eq {base : Url} (hpath : base.path = .segments parts)
    (hparts : ∀ s ∈ parts, IsSettled s) (hfile : base.scheme ≠ "file")
    (hspecial : base.isSpecial = true) {path : String} (hrelative : dropLeadingSlashes path ≠ "") :
    base.pathBelow path =
      .segments (pushSegments (trunk parts).reverse
        (Text.splitList (isSlash true) (pathChars path))).reverse := by
  have htrunk : ∀ s ∈ trunk parts, IsSettled s := fun s hs => hparts s (mem_of_mem_trunk hs)
  have hchars : (dropTrailingSlashes base.pathText ++ "/" ++ dropLeadingSlashes path).toList.filter
      (fun c => !isSkipped c) = slashedChars (trunk parts) ++ '/' :: pathChars path := by
    rw [pathText, hpath, Path.toText, dropTrailingSlashes_slashed hparts]
    simp only [String.toList_append, toList_slashed, List.filter_append,
      filter_slashedChars htrunk, List.append_assoc]
    rfl
  simp only [pathBelow, setPath, hpath, hchars, hfile, hspecial, hrelative, if_false]
  rw [readPath_slashedChars htrunk]

end Url
end Courier
