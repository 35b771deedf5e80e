import Courier.Proofs.HostText
import Courier.Proofs.Segments
/-!
URLs of the web and their texts.  The authority, the path, the query and the fragment of a URL that was
read have none of the signs at which the reader would take them for ended; so its text falls apart into
the same parts when it is read again.  Putting a request path and pairs below such a URL keeps it so.
-/
namespace Courier

namespace Text

theorem stripBy_of_forall {p : Char → Bool} {cs : List Char} (h : ∀ c ∈ cs, p c = false) :
    stripBy p cs = cs := by
  have hdrop : ∀ l : List Char, (∀ c ∈ l, p c = false) → l.dropWhile p = l := by
    intro l hl
    cases l with
    | nil => rfl
    | cons c l => rw [List.dropWhile_cons, hl c List.mem_cons_self, if_neg (by decide)]
  rw [stripBy, hdrop cs h, hdrop cs.reverse fun c hc => h c (List.mem_reverse.mp hc),
    List.reverse_reverse]

end Text

namespace Url

open Percent (spares inSpecialQuery inFragment)

/-! ### Queries in form encoding -/

theorem not_inSpecialQuery_of_isFormPlain (b : UInt8) :
    Percent.isFormPlain b = true → inSpecialQuery b = false := by
  revert b
  apply forall_octet
  set_option maxRecDepth 4096 in decide

theorem spares_of_mem_encodeFormOctet {b : UInt8} {c : Char} (h : c ∈ Percent.encodeFormOctet b) :
    spares inSpecialQuery c = true := by
  unfold Percent.encodeFormOctet at h
  split_ifs at h with hplain hblank
  · apply Percent.settles_inSpecialQuery b
    rw [Percent.encodeOctet, not_inSpecialQuery_of_isFormPlain b hplain]
    exact h
  · rw [List.mem_singleton.mp h]
    decide
  · have hescapes : Percent.escapeChars.all (spares inSpecialQuery) = true := by decide
    exact List.all_eq_true.mp hescapes c (Percent.mem_escapeChars_of_mem_escape h)

theorem spares_of_mem_encodeForm {s : String} {c : Char} (h : c ∈ Percent.encodeForm s) :
    spares inSpecialQuery c = true := by
  obtain ⟨b, _, hc⟩ := List.mem_flatMap.mp h
  exact spares_of_mem_encodeFormOctet hc

theorem spares_of_mem_encodePair {pair : String × String} {c : Char}
    (h : c ∈ Query.encodePair pair) : spares inSpecialQuery c = true := by
  rcases List.mem_append.mp h with hname | hvalue
  · exact spares_of_mem_encodeForm hname
  · rcases List.mem_cons.mp hvalue with rfl | hvalue
    · decide
    · exact spares_of_mem_encodeForm hvalue

theorem spares_of_mem_encodeChars {pairs : Pairs} {c : Char} (h : c ∈ Query.encodeChars pairs) :
    spares inSpecialQuery c = true := by
  unfold Query.encodeChars at h
  induction pairs with
  | nil => simp [Query.joinAmp] at h
  | cons pair pairs ih =>
      cases pairs with
      | nil => exact spares_of_mem_encodePair h
      | cons next pairs =>
          rcases List.mem_append.mp h with hpair | hrest
          · exact spares_of_mem_encodePair hpair
          · rcases List.mem_cons.mp hrest with rfl | hrest
            · decide
            · exact ih hrest

theorem spares_of_mem_encode {pairs : Pairs} {c : Char} (h : c ∈ (Query.encode pairs).toList) :
    spares inSpecialQuery c = true := by
  rw [Query.encode, String.toList_ofList] at h
  exact spares_of_mem_encodeChars h

/-- A query stays in its written form when pairs are put behind it. -/
theorem spares_of_mem_append {query : Option String} {pairs : Pairs}
    (hquery : ∀ q, query = some q → ∀ c ∈ q.toList, spares inSpecialQuery c = true) {c : Char}
    (h : c ∈ (Query.append query pairs).toList) : spares inSpecialQuery c = true := by
  cases query with
  | none => exact spares_of_mem_encode h
  | some q =>
      have hamp : ∀ c ∈ "&".toList, spares inSpecialQuery c = true :=
        List.all_eq_true.mp (by decide)
      simp only [Query.append] at h
      split_ifs at h
      · rw [String.toList_append] at h
        exact (List.mem_append.mp h).elim (hquery q rfl c) spares_of_mem_encode
      · simp only [String.toList_append, List.mem_append] at h
        rcases h with (hbefore | hsign) | hpairs
        · exact hquery q rfl c hbefore
        · exact hamp c hsign
        · exact spares_of_mem_encode hpairs

/-! ### URLs in their written form -/

/-- A URL of the web each part of which is in its written form. -/
structure IsWritten (url : Url) : Prop where
  web : url.scheme = "http" ∨ url.scheme = "https"
  authority : ∃ a, url.authority = some a ∧ a.IsWhole
  path : ∃ parts, url.path = .segments parts ∧ parts ≠ [] ∧ ∀ s ∈ parts, IsSettled s
  query : ∀ q, url.query = some q → ∀ c ∈ q.toList, spares inSpecialQuery c = true
  fragment : ∀ f, url.fragment = some f → ∀ c ∈ f.toList, spares inFragment c = true

theorem not_file_of_web {scheme : String} (h : scheme = "http" ∨ scheme = "https") :
    scheme ≠ "file" ∧ isSpecialScheme scheme = true := by
  rcases h with rfl | rfl
  · decide
  · decide

variable {scheme text : String} {cs : List Char} {url : Url}

theorem eq_of_readHierarchy (h : readHierarchy scheme cs = .ok url) :
    ∃ authorityChars pathChars a, readAuthority scheme authorityChars = .ok a ∧
      url = assembleUrl scheme (some a)
        (.segments (readPath (isSpecialScheme scheme) pathChars)) (splitTail cs).2.1
        (splitTail cs).2.2 := by
  obtain ⟨a, ha, h⟩ := bind_eq_ok_iff.mp h
  exact ⟨_, _, a, ha, (Except.ok.inj h).symm⟩

theorem scheme_of_readFile (h : readFile cs = .ok url) : url.scheme = "file" := by
  simp only [readFile] at h
  split at h
  · split_ifs at h
    · obtain rfl := Except.ok.inj h
      rfl
    · obtain ⟨host, _, h⟩ := bind_eq_ok_iff.mp h
      obtain rfl := Except.ok.inj h
      rfl
    · obtain rfl := Except.ok.inj h
      rfl
  · obtain rfl := Except.ok.inj h
    rfl

theorem scheme_of_readGeneral (h : readGeneral scheme cs = .ok url) : url.scheme = scheme := by
  unfold readGeneral at h
  split at h
  · obtain ⟨_, _, _, _, rfl⟩ := eq_of_readHierarchy h
    rfl
  · obtain rfl := Except.ok.inj h
    rfl

theorem isWritten_of_readHierarchy (hweb : scheme = "http" ∨ scheme = "https")
    (h : readHierarchy scheme cs = .ok url) : url.IsWritten := by
  obtain ⟨_, hspecial⟩ := not_file_of_web hweb
  obtain ⟨_, pathChars, a, ha, rfl⟩ := eq_of_readHierarchy h
  rw [hspecial]
  refine ⟨hweb, ⟨a, rfl, isWhole_of_readAuthority hspecial ha⟩,
    ⟨_, rfl, settled_readPath pathChars⟩, ?_, ?_⟩
  · intro q hq c hc
    obtain ⟨chars, _, rfl⟩ := Option.map_eq_some_iff.mp hq
    rw [encodeQuery, if_pos hspecial, String.toList_ofList] at hc
    exact Percent.spares_of_mem_encode Percent.settles_inSpecialQuery hc
  · intro f hf c hc
    obtain ⟨chars, _, rfl⟩ := Option.map_eq_some_iff.mp hf
    rw [encodeFragment, String.toList_ofList] at hc
    exact Percent.spares_of_mem_encode Percent.settles_inFragment hc

/-- A URL of the web is in its written form when it was read. -/
theorem isWritten_of_parse (hread : Url.parse text = .ok url)
    (hweb : url.scheme = "http" ∨ url.scheme = "https") : url.IsWritten := by
  unfold parse parseChars at hread
  cases hscheme : splitScheme? (readable text) with
  | none => simp [hscheme] at hread
  | some parts =>
      obtain ⟨scheme, rest⟩ := parts
      simp only [hscheme] at hread
      split_ifs at hread with hfile hspecial
      · exact absurd (scheme_of_readFile hread) (not_file_of_web hweb).1
      · have hsame : url.scheme = scheme := by
          obtain ⟨_, _, _, _, rfl⟩ := eq_of_readHierarchy hread
          rfl
        exact isWritten_of_readHierarchy (hsame ▸ hweb) hread
      · rw [scheme_of_readGeneral hread] at hweb
        exact absurd (not_file_of_web hweb).2 hspecial

/-- What is put below a URL in its written form is in that form too. -/
theorem IsWritten.below {base : Url} (h : base.IsWritten) (path : String) (pairs : Pairs) :
    (base.below path pairs).IsWritten := by
  obtain ⟨hweb, hauthority, ⟨parts, hpath, hne, hparts⟩, hquery, hfragment⟩ := h
  obtain ⟨hfile, hspecial⟩ := not_file_of_web hweb
  rw [below_eq]
  refine ⟨hweb, hauthority, ?_, ?_, hfragment⟩
  · by_cases hrelative : dropLeadingSlashes path = ""
    · rw [pathBelow, if_pos hrelative]
      exact ⟨parts, hpath, hne, hparts⟩
    · rw [pathBelow_eq hpath hparts hfile hspecial hrelative]
      refine ⟨_, rfl, ?_, ?_⟩
      · rw [List.reverse_ne_nil_iff]
        exact pushSegments_ne_nil (Text.splitList_ne_nil _ _)
      · intro s hs
        have htrunk : ∀ s ∈ (trunk parts).reverse, IsSettled s := by
          intro s hs
          exact hparts s (mem_of_mem_trunk (List.mem_reverse.mp hs))
        refine settled_pushSegments htrunk ?_ s (List.mem_reverse.mp hs)
        intro raw hraw c hc
        exact Text.eq_false_of_mem_splitList hraw hc
  · intro q hq c hc
    dsimp only [queryWith] at hq
    split_ifs at hq
    · exact hquery q hq c hc
    · obtain rfl := Option.some.inj hq
      exact spares_of_mem_append hquery hc

/-! ### Reading a URL from its text -/

/-- The part of a URL behind a sign, with the sign. -/
def tailChars (sign : Char) : Option String → List Char
  | some s => sign :: s.toList
  | none => []

theorem splitAt_tailChars {sign : Char} {front : List Char} (hfront : ∀ c ∈ front, c ≠ sign)
    (part : Option String) :
    (front ++ tailChars sign part).takeWhile (· != sign) = front ∧
      (front ++ tailChars sign part).dropWhile (· != sign) = tailChars sign part := by
  have hpass : ∀ c ∈ front, (c != sign) = true := fun c hc => bne_iff_ne.mpr (hfront c hc)
  rw [List.takeWhile_append_of_pos hpass, List.dropWhile_append_of_pos hpass]
  cases part with
  | none => simp [tailChars]
  | some s => simp [tailChars]

/-- The text is cut at the signs that were put between the parts. -/
theorem splitTail_append {front : List Char} {query fragment : Option String}
    (hquestion : ∀ c ∈ front, c ≠ '?') (hhash : ∀ c ∈ front, c ≠ '#')
    (hquery : ∀ q, query = some q → ∀ c ∈ q.toList, c ≠ '#') :
    splitTail (front ++ tailChars '?' query ++ tailChars '#' fragment) =
      (front, query.map String.toList, fragment.map String.toList) := by
  have hbody : ∀ c ∈ front ++ tailChars '?' query, c ≠ '#' := by
    intro c hc
    rcases List.mem_append.mp hc with hfront | hq
    · exact hhash c hfront
    · cases query with
      | none => simp [tailChars] at hq
      | some q =>
          rcases List.mem_cons.mp hq with rfl | hq
          · decide
          · exact hquery q rfl c hq
  obtain ⟨htake, hdrop⟩ := splitAt_tailChars hbody fragment
  obtain ⟨htake', hdrop'⟩ := splitAt_tailChars hquestion query
  simp only [splitTail, htake, hdrop, htake', hdrop']
  cases query <;> cases fragment <;> rfl

theorem toList_queryText (url : Url) : url.queryText.toList = tailChars '?' url.query := by
  unfold queryText tailChars
  cases url.query <;> simp

theorem toList_fragmentText (url : Url) :
    url.fragmentText.toList = tailChars '#' url.fragment := by
  unfold fragmentText tailChars
  cases url.fragment <;> simp

/-- The characters behind the scheme and the two slashes. -/
def bodyChars (a : Authority) (parts : List String) (url : Url) : List Char :=
  a.siteChars ++ slashedChars parts ++ tailChars '?' url.query ++ tailChars '#' url.fragment

theorem toList_toText {a : Authority} {parts : List String} (ha : url.authority = some a)
    (hpath : url.path = .segments parts) :
    url.toText.toList = url.scheme.toList ++ ':' :: '/' :: '/' :: bodyChars a parts url := by
  have hauthority : url.authorityText.toList = '/' :: '/' :: a.siteChars := by
    simp [authorityText, ha, Authority.toText, Authority.siteChars]
  have hpathText : url.pathText.toList = slashedChars parts := by
    rw [pathText, hpath, Path.toText, toList_slashed]
  simp [toText, hauthority, hpathText, toList_queryText, toList_fragmentText, bodyChars]

theorem splitScheme?_of_web (hweb : scheme = "http" ∨ scheme = "https") (rest : List Char) :
    splitScheme? (scheme.toList ++ ':' :: rest) = some (scheme, rest) := by
  rcases hweb with rfl | rfl
  · rfl
  · rfl

theorem encodeQuery_of_spares {special : Bool} {q : String} (hspecial : special = true)
    (h : ∀ c ∈ q.toList, spares inSpecialQuery c = true) : encodeQuery special q.toList = q := by
  rw [encodeQuery, if_pos hspecial, Percent.encode_of_spares h, String.ofList_toList]

theorem encodeFragment_of_spares {f : String} (h : ∀ c ∈ f.toList, spares inFragment c = true) :
    encodeFragment f.toList = f := by
  rw [encodeFragment, Percent.encode_of_spares h, String.ofList_toList]

namespace IsWritten

variable {a : Authority} {parts : List String}

/-- The parts of a URL are put together again as they were. -/
theorem assembleUrl_eq (h : url.IsWritten) (hpath : url.path = .segments parts) (a : Authority) :
    assembleUrl url.scheme (some a) (.segments parts) (url.query.map String.toList)
        (url.fragment.map String.toList) = { url with authority := some a } := by
  obtain ⟨_, hspecial⟩ := not_file_of_web h.web
  have hquery : (url.query.map String.toList).map (encodeQuery (isSpecialScheme url.scheme)) =
      url.query := by
    cases hq : url.query with
    | none => rfl
    | some q => exact congrArg some (encodeQuery_of_spares hspecial (h.query q hq))
  have hfragment : (url.fragment.map String.toList).map encodeFragment = url.fragment := by
    cases hf : url.fragment with
    | none => rfl
    | some f => exact congrArg some (encodeFragment_of_spares (h.fragment f hf))
  rw [assembleUrl, hquery, hfragment, ← hpath]

/-- In front of the query nothing looks like a query or a fragment. -/
theorem ne_of_mem_front (ha : a.IsWhole) (hparts : ∀ s ∈ parts, IsSettled s) {c : Char}
    (h : c ∈ a.siteChars ++ slashedChars parts) : 0x20 < c.toNat ∧ c ≠ '?' ∧ c ≠ '#' := by
  rcases List.mem_append.mp h with hsite | hpath
  · obtain ⟨hvisible, _, hquestion, hhash⟩ := parts_of_isInner (ha.inner c hsite)
    exact ⟨hvisible, hquestion, hhash⟩
  · obtain ⟨segment, hsegment, hc⟩ := List.mem_flatMap.mp hpath
    rcases List.mem_cons.mp hc with rfl | hc
    · decide
    · have hspared := (hparts segment hsegment).spared c hc
      exact ⟨Percent.lt_of_spares_inPath hspared, Percent.ne_of_spares hspared (by decide),
        Percent.ne_of_spares hspared (by decide)⟩

theorem readHierarchy_bodyChars (h : url.IsWritten) (ha : a.IsWhole)
    (hpath : url.path = .segments parts) (hne : parts ≠ []) (hparts : ∀ s ∈ parts, IsSettled s) :
    readHierarchy url.scheme (bodyChars a parts url) =
      (readAuthority url.scheme a.siteChars).map fun read =>
        { url with authority := some read } := by
  obtain ⟨_, hspecial⟩ := not_file_of_web h.web
  have hsplit : splitTail (bodyChars a parts url) = (a.siteChars ++ slashedChars parts,
      url.query.map String.toList, url.fragment.map String.toList) := by
    apply splitTail_append
    · exact fun c hc => (ne_of_mem_front ha hparts hc).2.1
    · exact fun c hc => (ne_of_mem_front ha hparts hc).2.2
    · exact fun q hq c hc => Percent.ne_of_spares (h.query q hq c hc) (by decide)
  have hsite : ∀ c ∈ a.siteChars, (!isSlash true c) = true := by
    intro c hc
    rw [(parts_of_isInner (ha.inner c hc)).2.1]
    rfl
  have hslashes : (slashedChars parts).takeWhile (fun c => !isSlash true c) = [] ∧
      (slashedChars parts).dropWhile (fun c => !isSlash true c) = slashedChars parts := by
    cases parts with
    | nil => exact absurd rfl hne
    | cons part parts => exact ⟨rfl, rfl⟩
  simp only [readHierarchy, hsplit, hspecial, List.takeWhile_append_of_pos hsite,
    List.dropWhile_append_of_pos hsite, hslashes, List.append_nil]
  rw [← toList_slashed, readPath_toList_slashed hne hparts]
  cases readAuthority url.scheme a.siteChars with
  | error e => rfl
  | ok read => exact congrArg Except.ok (h.assembleUrl_eq hpath read)

theorem lt_of_mem_bodyChars (h : url.IsWritten) (ha : a.IsWhole)
    (hparts : ∀ s ∈ parts, IsSettled s) {c : Char} (hc : c ∈ bodyChars a parts url) :
    0x20 < c.toNat := by
  have htail : ∀ {sign : Char} {part : Option String}, 0x20 < sign.toNat →
      (∀ s, part = some s → ∀ c ∈ s.toList, 0x20 < c.toNat) → c ∈ tailChars sign part →
      0x20 < c.toNat := by
    intro sign part hsign hpart hc
    cases part with
    | none => simp [tailChars] at hc
    | some s =>
        rcases List.mem_cons.mp hc with rfl | hc
        · exact hsign
        · exact hpart s rfl c hc
  rcases List.mem_append.mp hc with hc | hfragment
  · rcases List.mem_append.mp hc with hfront | hquery
    · exact (ne_of_mem_front ha hparts hfront).1
    · exact htail (by decide)
        (fun q hq c hc => Percent.lt_of_spares_inSpecialQuery (h.query q hq c hc)) hquery
  · exact htail (by decide)
      (fun f hf c hc => Percent.lt_of_spares_inFragment (h.fragment f hf c hc)) hfragment

/-- Every character of the text counts. -/
theorem readable_toText (h : url.IsWritten) (ha : url.authority = some a) (hwhole : a.IsWhole)
    (hpath : url.path = .segments parts) (hparts : ∀ s ∈ parts, IsSettled s) :
    readable url.toText = url.toText.toList := by
  have hvisible : ∀ c ∈ url.toText.toList, 0x20 < c.toNat := by
    intro c hc
    rw [toList_toText ha hpath] at hc
    rcases List.mem_append.mp hc with hscheme | hc
    · have hseen : ∀ c ∈ "http".toList ++ "https".toList, 0x20 < c.toNat := by simp
      rcases h.web with hscheme' | hscheme'
      · exact hseen c (List.mem_append_left _ (hscheme' ▸ hscheme))
      · exact hseen c (List.mem_append_right _ (hscheme' ▸ hscheme))
    · rcases List.mem_cons.mp hc with rfl | hc
      · decide
      · rcases List.mem_cons.mp hc with rfl | hc
        · decide
        · rcases List.mem_cons.mp hc with rfl | hc
          · decide
          · exact h.lt_of_mem_bodyChars hwhole hparts hc
  rw [readable, Text.stripBy_of_forall, List.filter_eq_self]
  · intro c hc
    rw [isSkipped_of_lt (hvisible c hc)]
    rfl
  · intro c hc
    have hc := hvisible c hc
    simp only [decide_eq_false_iff_not]
    omega

/-- The text of a URL in its written form is read as this URL, with what is read of the text of its
authority. -/
theorem parse_toText (h : url.IsWritten) (ha : url.authority = some a) :
    Url.parse url.toText = (readAuthority url.scheme a.siteChars).map fun read =>
      { url with authority := some read } := by
  obtain ⟨a', ha', hwhole⟩ := h.authority
  obtain rfl := Option.some.inj (ha.symm.trans ha')
  obtain ⟨parts, hpath, hne, hparts⟩ := h.path
  obtain ⟨hfile, hspecial⟩ := not_file_of_web h.web
  have hbody : ('/' :: '/' :: bodyChars a parts url).dropWhile (isSlash true) =
      bodyChars a parts url := by
    obtain ⟨c, rest, hsite⟩ := List.exists_cons_of_ne_nil hwhole.ne_nil
    have hc := (parts_of_isInner (hwhole.inner c (by rw [hsite]; exact List.mem_cons_self))).2.1
    have hslash : isSlash true '/' = true := rfl
    simp only [bodyChars, hsite, List.cons_append, List.dropWhile_cons, hslash, hc, if_true,
      Bool.false_eq_true, if_false]
  rw [parse, h.readable_toText ha hwhole hpath hparts, toList_toText ha hpath, parseChars,
    splitScheme?_of_web h.web]
  simp only [hfile, hspecial, if_true, if_false, hbody]
  exact h.readHierarchy_bodyChars hwhole hpath hne hparts

/-- Where URLs differ in nothing but what is behind the authority, their texts are read alike. -/
theorem parse_toText_of_site {base : Url} (h : url.IsWritten) (hbase : base.IsWritten)
    (hscheme : url.scheme = base.scheme) (hauthority : url.authority = base.authority) :
    Url.parse url.toText = (Url.parse base.toText).map fun read =>
      { url with authority := read.authority } := by
  obtain ⟨a, ha, _⟩ := hbase.authority
  rw [h.parse_toText (hauthority.trans ha), hbase.parse_toText ha, hscheme]
  cases readAuthority base.scheme a.siteChars with
  | error e => rfl
  | ok read => rfl

end IsWritten

theorem parse_below {base : Url} (h : base.IsWritten) (path : String) (pairs : Pairs) :
    Url.parse (base.below path pairs).toText = (Url.parse base.toText).map fun read =>
      { base.below path pairs with authority := read.authority } := by
  apply (h.below path pairs).parse_toText_of_site h
  · rw [below_eq]
  · rw [below_eq]

end Url
end Courier
