import Courier.Request
/-!
Preparation of requests.  The headers of a request come in layers: those that every client has, those
of its settings, those of the body, those of the request, and in most cases the content type on top.
A layer says something about some names only; of two layers that say something about one name the
upper one counts.
-/
namespace Courier

/-- What is done in two steps succeeds if both of them do. -/
theorem bind_eq_ok_iff {ε α β : Type} {first : Except ε α} {next : α → Except ε β} {b : β} :
    (first >>= next) = .ok b ↔ ∃ a, first = .ok a ∧ next a = .ok b := by
  cases first with
  | error e => simp [bind, Except.bind]
  | ok a => simp [bind, Except.bind]

theorem eq_ok_of_isOk {ε α : Type} {x : Except ε α} (h : x.isOk = true) (other : α) :
    x = .ok (x.toOption.getD other) := by
  cases x with
  | error e => simp [Except.isOk, Except.toBool] at h
  | ok a => rfl

theorem HeaderName.parseField_eq_ok_iff {name value : String} {n : HeaderName} {v : HeaderValue} :
    HeaderName.parseField name value = .ok (n, v) ↔
      HeaderName.parse? name = some n ∧ HeaderValue.ofText? value = some v := by
  unfold HeaderName.parseField
  cases HeaderName.parse? name with
  | none => simp
  | some n' =>
      cases HeaderValue.ofText? value with
      | none => simp
      | some v' => simp

namespace Headers

/-- Every name has the value that is said about it, once, and no other. -/
def Holds (headers : Headers) (value? : HeaderName → Option HeaderValue) : Prop :=
  ∀ name, headers.getAll name = (value? name).toList

/-- The value that is given to a name by the last of the calls that give it one; the letter case of
names does not matter. -/
def lastOf (calls : List (String × String)) (name : HeaderName) : Option HeaderValue :=
  (calls.filterMap fun call =>
    if HeaderName.parse? call.1 = some name then HeaderValue.ofText? call.2 else none).getLast?

variable {headers headers' : Headers} {value? : HeaderName → Option HeaderValue}

theorem getAll_insert_self (headers : Headers) (name : HeaderName) (value : HeaderValue) :
    (headers.insert name value).getAll name = [value] := by
  unfold insert getAll
  induction headers.fields with
  | nil => simp [replaceIn]
  | cons field rest ih =>
      by_cases hname : field.1 = name
      · simp [replaceIn, hname]
      · simpa [replaceIn, hname] using ih

theorem getAll_insert_of_ne {name other : HeaderName} (value : HeaderValue) (h : name ≠ other) :
    (headers.insert name value).getAll other = headers.getAll other := by
  unfold insert getAll
  induction headers.fields with
  | nil => simp [replaceIn, h]
  | cons field rest ih =>
      by_cases hname : field.1 = name
      · have hkept : (rest.filter fun field => field.1 ≠ name).filter (fun field => field.1 = other) =
            rest.filter fun field => field.1 = other := by
          rw [List.filter_filter]
          refine List.filter_congr ?_
          intro field _
          by_cases hfield : field.1 = other
          · simp [hfield, h.symm]
          · simp [hfield]
        rw [replaceIn, if_pos hname, List.filter_cons_of_neg (by simpa using h), hkept,
          List.filter_cons_of_neg (by simpa [hname] using h)]
      · rw [replaceIn, if_neg hname]
        by_cases hother : field.1 = other
        · simpa [hother] using ih
        · simpa [hother] using ih

/-- One field lies on top of the headers that are there. -/
theorem Holds.insert (h : headers.Holds value?) (name : HeaderName) (value : HeaderValue) :
    (headers.insert name value).Holds fun other =>
      (if name = other then some value else none).or (value? other) := by
  intro other
  by_cases hother : name = other
  · simp [← hother, getAll_insert_self]
  · simpa [hother, getAll_insert_of_ne value hother] using h other

/-- A call in front counts where none of the others says anything. -/
theorem lastOf_cons {name value : String} {n : HeaderName} {v : HeaderValue}
    (hname : HeaderName.parse? name = some n) (hvalue : HeaderValue.ofText? value = some v)
    (calls : List (String × String)) (other : HeaderName) :
    lastOf ((name, value) :: calls) other =
      (lastOf calls other).or (if n = other then some v else none) := by
  unfold lastOf
  by_cases hother : n = other
  · rw [List.filterMap_cons_some (by simp [hname, hvalue, hother] : _ = some v),
      List.getLast?_cons, if_pos hother]
    cases List.getLast? _ with
    | none => rfl
    | some last => rfl
  · rw [List.filterMap_cons_none (by simp [hname, hother]), if_neg hother, Option.or_none]

/-- Nothing is said about a name by calls that are all about others. -/
theorem lastOf_eq_none {calls : List (String × String)} {name : HeaderName}
    (h : ∀ call ∈ calls, HeaderName.parse? call.1 ≠ some name) : lastOf calls name = none := by
  unfold lastOf
  rw [List.getLast?_eq_none_iff, List.filterMap_eq_nil_iff]
  intro call hcall
  rw [if_neg (h call hcall)]

/-- Calls lie on top of the headers that are there. -/
theorem Holds.insertTexts {calls : List (String × String)} (h : headers.Holds value?)
    (hcalls : headers.insertTexts calls = .ok headers') :
    headers'.Holds fun name => (lastOf calls name).or (value? name) := by
  induction calls generalizing headers value? with
  | nil =>
      rw [Headers.insertTexts, Except.ok.injEq] at hcalls
      rw [← hcalls]
      exact h
  | cons call calls ih =>
      obtain ⟨name, value⟩ := call
      cases hfield : HeaderName.parseField name value with
      | error e => simp [Headers.insertTexts, hfield] at hcalls
      | ok field =>
          simp only [Headers.insertTexts, hfield] at hcalls
          obtain ⟨hname, hvalue⟩ := HeaderName.parseField_eq_ok_iff.mp hfield
          intro other
          simp only [lastOf_cons hname hvalue, Option.or_assoc]
          exact ih (h.insert field.1 field.2) hcalls other

end Headers

namespace Draft

/-- What a draft says about a name: the last that was added, else what every client has. -/
def value? (draft : Draft) (name : HeaderName) : Option HeaderValue :=
  (Headers.lastOf draft.headers name).or (builtInHeaders.get? name)

theorem holds_builtInHeaders : builtInHeaders.Holds builtInHeaders.get? := by
  intro name
  by_cases haccept : name = .accept
  · rw [haccept]
    decide
  · by_cases hagent : name = .userAgent
    · rw [hagent]
      decide
    · simp [builtInHeaders, Headers.get?, Headers.getAll, Ne.symm haccept, Ne.symm hagent]

/-- The headers of a draft are put on top of those of every client as those of a request are put on
top of them. -/
theorem insertTexts_of_overlay {headers headers' : Headers} {calls : List (String × String)}
    (h : overlay headers calls = .ok headers') : headers.insertTexts calls = .ok headers' := by
  induction calls generalizing headers with
  | nil => simpa [overlay, Headers.insertTexts] using h
  | cons call calls ih =>
      obtain ⟨name, value⟩ := call
      by_cases hempty : (Text.trim name).isEmpty
      · simp [overlay, hempty] at h
      · cases hfield : HeaderName.parseField name value with
        | error e => simp [overlay, hempty, hfield] at h
        | ok field =>
            simp only [overlay, hempty, Bool.false_eq_true, ↓reduceIte, hfield] at h
            simpa [Headers.insertTexts, hfield] using ih h

theorem ofText?_of_checkContentType {draft : Draft} {value : HeaderValue}
    (h : draft.checkContentType = .ok value) :
    HeaderValue.ofText? draft.contentType = some value := by
  unfold checkContentType at h
  by_cases hempty : (Text.trim draft.contentType).isEmpty
  · simp [hempty] at h
  · cases hvalue : HeaderValue.ofText? draft.contentType with
    | none => simp [hempty, hvalue] at h
    | some value' => simpa [hempty, hvalue] using h

/-- What settings have of their draft: each part was checked. -/
structure Checked (draft : Draft) (settings : Settings) : Prop where
  base : draft.checkBase = .ok settings.base
  contentType : draft.checkContentType = .ok settings.contentType
  headers : overlay builtInHeaders draft.headers = .ok settings.headers
  rate : draft.checkRate = .ok settings.rate

theorem checked_of_check {draft : Draft} {settings : Settings} (h : draft.check = .ok settings) :
    draft.Checked settings := by
  obtain ⟨base, hbase, h⟩ := bind_eq_ok_iff.mp h
  by_cases htimeout : draft.timeout = some 0
  · simp [htimeout, throw, throwThe, MonadExceptOf.throw, bind, Except.bind] at h
  · simp only [if_neg htimeout] at h
    obtain ⟨contentType, htype, h⟩ := bind_eq_ok_iff.mp h
    obtain ⟨headers, hheaders, h⟩ := bind_eq_ok_iff.mp h
    obtain ⟨rate, hrate, h⟩ := bind_eq_ok_iff.mp h
    simp only [pure, Except.pure, Except.ok.injEq] at h
    subst h
    exact ⟨hbase, htype, hheaders, hrate⟩

/-- Settings have the content type of their draft and, for every name, what it says. -/
theorem holds_of_check {draft : Draft} {settings : Settings} (h : draft.check = .ok settings) :
    HeaderValue.ofText? draft.contentType = some settings.contentType ∧
      settings.headers.Holds draft.value? :=
  have hchecked := checked_of_check h
  ⟨ofText?_of_checkContentType hchecked.contentType,
    holds_builtInHeaders.insertTexts (insertTexts_of_overlay hchecked.headers)⟩

end Draft

namespace Body

/-- The content type that the kind of a body settles. -/
def ownType? : Body → Option String
  | .octets _ | .text _ => none
  | .form _ => some "application/x-www-form-urlencoded"
  | .json _ => some "application/json"
  | .xml _ _ _ => some "application/xml"
  | .soap _ version _ => some version.contentType

/-- The quoted action of a body in an envelope. -/
def action? : Body → Option HeaderValue
  | .soap _ _ (some action) =>
      if action.isEmpty then none else HeaderValue.ofText? ("\"" ++ action ++ "\"")
  | _ => none

/-- What a body says about a name. -/
def value? (body : Body) (name : HeaderName) : Option HeaderValue :=
  if .soapAction = name then body.action? else none

theorem fields_of_actionHeaders {value : Datum} {version : SoapVersion} {action : Option String}
    {headers : Headers} (h : actionHeaders action = .ok headers) :
    headers.fields = ((Body.soap value version action).action?.map (.soapAction, ·)).toList := by
  unfold actionHeaders at h
  cases action with
  | none =>
      rw [Except.ok.injEq] at h
      rw [← h]
      rfl
  | some action =>
      by_cases hempty : action.isEmpty
      · simp only [hempty, ↓reduceIte, Except.ok.injEq] at h
        rw [← h]
        simp [action?, hempty, Headers.empty]
      · cases hvalue : HeaderValue.ofText? ("\"" ++ action ++ "\"") with
        | none => simp [hempty, hvalue] at h
        | some value =>
            simp only [hempty, Bool.false_eq_true, ↓reduceIte, hvalue, Except.ok.injEq] at h
            rw [← h]
            simp [action?, hempty, hvalue, Headers.empty, Headers.insert, Headers.replaceIn]

/-- What an encoded body has besides its octets. -/
theorem parts_of_encode {body : Body} {encoded : EncodedBody} (h : body.encode = .ok encoded) :
    encoded.contentType = body.ownType? ∧
      encoded.headers.fields = (body.action?.map (.soapAction, ·)).toList := by
  unfold encode at h
  cases body with
  | octets | text | form =>
      simp only [Except.ok.injEq] at h
      rw [← h]
      exact ⟨rfl, rfl⟩
  | json value =>
      cases hvalue : value.toJsonText with
      | error cause => simp [hvalue] at h
      | ok s =>
          simp only [hvalue, Except.ok.injEq] at h
          rw [← h]
          exact ⟨rfl, rfl⟩
  | xml value root declaration =>
      cases hvalue : Xml.write value with
      | error cause => simp [hvalue] at h
      | ok inner =>
          simp only [hvalue, Except.ok.injEq] at h
          rw [← h]
          exact ⟨rfl, rfl⟩
  | soap value version action =>
      cases hvalue : Xml.write value with
      | error cause => simp [hvalue] at h
      | ok inner =>
          cases haction : actionHeaders action with
          | error e => simp [hvalue, haction, Except.map] at h
          | ok headers =>
              simp only [hvalue, haction, Except.map, Except.ok.injEq] at h
              rw [← h]
              exact ⟨rfl, fields_of_actionHeaders haction⟩

/-- The headers of a body lie on top of the headers that are there. -/
theorem holds_insertAll {body : Body} {encoded : EncodedBody} {headers : Headers}
    {value? : HeaderName → Option HeaderValue} (hencode : body.encode = .ok encoded)
    (h : headers.Holds value?) :
    (headers.insertAll encoded.headers).Holds fun name => (body.value? name).or (value? name) := by
  unfold Headers.insertAll
  rw [(parts_of_encode hencode).2]
  cases haction : body.action? with
  | none => simpa [Body.value?, haction] using h
  | some action => simpa [Body.value?, haction] using h.insert .soapAction action

end Body

namespace Request

/-- What a request says about a name on top of something: the last of its own calls, else what its
body says. -/
def value? (request : Request) (below? : HeaderName → Option HeaderValue) (name : HeaderName) :
    Option HeaderValue :=
  (Headers.lastOf request.headers name).or ((request.body.bind (·.value? name)).or (below? name))

/-- The content type that is put on top of all headers: the one that the request asks for, else that
of its body, else the default if there is a body. -/
def topType? (request : Request) (default : HeaderValue) : Option HeaderValue :=
  match request.contentType, request.body with
  | some text, _ => HeaderValue.ofText? text
  | none, some body => (body.ownType?.map fun text => ⟨Octets.ofText text, false⟩).or (some default)
  | none, none => none

variable {request : Request} {settings : Settings} {wire : WireRequest}
  {encoded : Option EncodedBody} {below? : HeaderName → Option HeaderValue}

theorem prepare_eq_ok_iff :
    request.prepare settings = .ok wire ↔
      ∃ encoded headers, request.encodeBody = .ok encoded ∧
        request.settleHeaders settings encoded = .ok headers ∧
        wire = { method := request.method, url := request.url settings, headers,
                 body := encoded.map (·.bytes) } := by
  unfold prepare
  cases request.encodeBody with
  | error e => simp
  | ok encoded =>
      cases hheaders : request.settleHeaders settings encoded with
      | error e => simp [hheaders]
      | ok headers => simp [hheaders, eq_comm]

/-- A prepared request goes by the method of the request to its URL. -/
theorem eq_of_prepare (h : request.prepare settings = .ok wire) :
    wire.method = request.method ∧ wire.url = request.url settings := by
  obtain ⟨_, _, _, _, rfl⟩ := prepare_eq_ok_iff.mp h
  exact ⟨rfl, rfl⟩

/-- A request that cannot be prepared fails before its first attempt. -/
theorem exists_cause_of_prepare {failure : Failure}
    (h : request.prepare settings = .error failure) :
    ∃ cause, failure = request.failBefore settings .unknown cause := by
  unfold prepare at h
  cases hbody : request.encodeBody with
  | error e =>
      simp only [hbody, Except.error.injEq] at h
      exact ⟨_, h.symm⟩
  | ok encoded =>
      cases hheaders : request.settleHeaders settings encoded with
      | error e =>
          simp only [hbody, hheaders, Except.error.injEq] at h
          exact ⟨_, h.symm⟩
      | ok headers => simp [hbody, hheaders] at h

/-- A body that can be encoded is encoded, and nothing is there without a body. -/
theorem encodeBody_eq_ok_iff :
    request.encodeBody = .ok encoded ↔
      match request.body with
      | none => encoded = none
      | some body => ∃ encoded', body.encode = .ok encoded' ∧ encoded = some encoded' := by
  unfold encodeBody
  cases request.body with
  | none => simp [eq_comm]
  | some body =>
      cases hencode : body.encode with
      | error e => simp [Except.map, hencode]
      | ok encoded' => simp [Except.map, hencode, eq_comm]

theorem topType?_of_settleContentType {type? : Option HeaderValue}
    (hencode : request.encodeBody = .ok encoded)
    (h : request.settleContentType settings encoded = .ok type?) :
    type? = request.topType? settings.contentType := by
  rw [encodeBody_eq_ok_iff] at hencode
  unfold settleContentType at h
  unfold topType?
  cases htype : request.contentType with
  | some text =>
      cases hvalue : HeaderValue.ofText? text with
      | none => simp [htype, hvalue] at h
      | some value => simpa [htype, hvalue, eq_comm] using h
  | none =>
      cases hbody : request.body with
      | none =>
          simp only [hbody] at hencode
          simpa [htype, hencode, eq_comm] using h
      | some body =>
          simp only [hbody] at hencode
          obtain ⟨⟨bytes, type, fields⟩, hencode, rfl⟩ := hencode
          have hown : type = body.ownType? := (Body.parts_of_encode hencode).1
          simp only [← hown]
          cases type with
          | none => simpa [htype, eq_comm] using h
          | some text => simpa [htype, eq_comm] using h

/-- The headers of the body of a request lie on top of the headers that are there. -/
theorem holds_insertAll {headers : Headers} (hencode : request.encodeBody = .ok encoded)
    (h : headers.Holds below?) :
    (headers.insertAll ((encoded.map (·.headers)).getD .empty)).Holds fun name =>
      (request.body.bind (·.value? name)).or (below? name) := by
  rw [encodeBody_eq_ok_iff] at hencode
  cases hbody : request.body with
  | none =>
      simp only [hbody] at hencode
      rw [hencode]
      exact h
  | some body =>
      simp only [hbody] at hencode
      obtain ⟨encoded', hencode, rfl⟩ := hencode
      exact body.holds_insertAll hencode h

/-- The headers of a prepared request: on top the content type, below it what the request says. -/
theorem holds_of_prepare (hsettings : settings.headers.Holds below?)
    (h : request.prepare settings = .ok wire) :
    wire.headers.Holds fun name =>
      (if .contentType = name then request.topType? settings.contentType else none).or
        (request.value? below? name) := by
  obtain ⟨encoded, headers, hencode, hsettle, rfl⟩ := prepare_eq_ok_iff.mp h
  obtain ⟨merged, hmerged, hsettle⟩ := bind_eq_ok_iff.mp hsettle
  obtain ⟨type?, htype, hsettle⟩ := bind_eq_ok_iff.mp hsettle
  have hvalues := (holds_insertAll hencode hsettings).insertTexts hmerged
  rw [← topType?_of_settleContentType hencode htype]
  cases type? with
  | none =>
      simp only [pure, Except.pure, Except.ok.injEq] at hsettle
      simpa [hsettle, value?] using hvalues
  | some type =>
      simp only [pure, Except.pure, Except.ok.injEq] at hsettle
      rw [← hsettle]
      exact hvalues.insert .contentType type

theorem getAll_contentType_of_prepare (hsettings : settings.headers.Holds below?)
    (h : request.prepare settings = .ok wire) :
    wire.headers.getAll .contentType =
      ((request.topType? settings.contentType).or (request.value? below? .contentType)).toList := by
  simpa using holds_of_prepare hsettings h .contentType

end Request
end Courier
