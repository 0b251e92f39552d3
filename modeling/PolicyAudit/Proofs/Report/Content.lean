import PolicyAudit.Proofs.Report.Fresh

/-! What the identity of a finding depends on.
`Finding.Content` is read off a document without checking it. For a document that is accepted the
identity is a function of the content (`identity_eq_of_ofValue`), so nothing else in the document
has a say in it. -/

namespace PolicyAudit

open Check Checked

namespace Value

/-- The text a value stands for; null and all that is no text stand for the empty one. -/
def heldText : Value → String
  | .text s => s
  | .bytes bs => (decoded? bs).getD ""
  | _ => ""

def textIn (v : Value) (name : String) : String := ((v.get? name).map heldText).getD ""

theorem textIn_map (es : Entries) (name : String) :
    (map es).textIn name = ((es.get? name).map heldText).getD "" := rfl

end Value

namespace Check

theorem eq_heldText_of_text {v : Value} {s : String} (h : text v = .accepted s) :
    s = v.heldText := by
  unfold text at h
  split at h
  · cases h
    rfl
  · split at h
    · rename_i hs
      cases h
      simp [Value.heldText, hs]
    · cases h
  · cases h

theorem getD_eq_heldText_of_nullable {v : Value} {o : Option String}
    (h : nullable text v = .accepted o) : o.getD "" = v.heldText := by
  unfold nullable at h
  split at h
  · cases h
    rfl
  · obtain ⟨s, hs, rfl⟩ := map_eq_accepted_iff.1 h
    exact eq_heldText_of_text hs

theorem getD_eq_heldText_of_vocabulary {name : String} {v : Value} {o : Option String}
    (h : vocabulary name v = .accepted o) : o.getD "" = v.heldText := by
  unfold vocabulary at h
  split at h
  · cases h
    rfl
  · split at h
    · rename_i hs
      cases h
      exact eq_heldText_of_text hs
    · cases h

variable {es : Entries} {name : String}

theorem find_of_no_alternative : find es name = (name, es.get? name) := by
  unfold find
  cases es.get? name <;> rfl

theorem withDefault_eq_accepted_iff {default a : α} {read : Value → Checked α} :
    withDefault es name default read = .accepted a ↔
      es.get? name = none ∧ a = default ∨ ∃ v, es.get? name = some v ∧ read v = .accepted a := by
  unfold withDefault
  rw [find_of_no_alternative]
  cases es.get? name with
  | none => simp [eq_comm]
  | some v => simp [under_eq_accepted_iff]

theorem required_eq_accepted_iff {read : Value → Checked α} {a : α} :
    required es name read = .accepted a ↔
      ∃ v, es.get? name = some v ∧ read v = .accepted a := by
  unfold required
  rw [find_of_no_alternative]
  cases es.get? name with
  | none => simp [Checked.fail, Checked.under]
  | some v => simp [under_eq_accepted_iff]

theorem getD_eq_textIn {read : Value → Checked (Option String)}
    (hread : ∀ v o, read v = .accepted o → o.getD "" = v.heldText) {o : Option String}
    (h : withDefault es name none read = .accepted o) : o.getD "" = (Value.map es).textIn name := by
  rw [Value.textIn_map]
  rcases withDefault_eq_accepted_iff.1 h with ⟨hv, rfl⟩ | ⟨v, hv, hread'⟩
  · simp [hv]
  · simp [hv, hread v o hread']

theorem getD_eq_textIn_of_optional {o : Option String}
    (h : Check.optional es name text = .accepted o) : o.getD "" = (Value.map es).textIn name :=
  getD_eq_textIn (fun _ _ => getD_eq_heldText_of_nullable) h

theorem eq_textIn_of_required {s : String} (h : required es name text = .accepted s) :
    s = (Value.map es).textIn name := by
  obtain ⟨v, hv, hread⟩ := required_eq_accepted_iff.1 h
  rw [Value.textIn_map]
  simp [hv, eq_heldText_of_text hread]

theorem get?_foldl_set {es : Entries} {kvs : List (String × String)}
    (h : labelEntries es = .accepted kvs) {acc : Entries} {l : Labels}
    (hl : ∀ name, (acc.get? name).map Value.heldText = l.get? name) (name : String) :
    ((es.foldl (fun acc (k, v) => acc.put k v) acc).get? name).map Value.heldText =
      (kvs.foldl (fun l (k, v) => l.set k v) l).get? name := by
  induction es generalizing kvs acc l with
  | nil =>
    cases h
    exact hl name
  | cons e es ih =>
    obtain ⟨k, v⟩ := e
    cases k with
    | other shown =>
      obtain ⟨_, _, hkv, -, -⟩ := seq_eq_accepted_iff.1 h
      obtain ⟨_, hpair, -⟩ := map_eq_accepted_iff.1 hkv
      obtain ⟨_, _, hkey, -, -⟩ := seq_eq_accepted_iff.1 hpair
      cases hkey
    | text key =>
      obtain ⟨_, rest, hkv, hrest, rfl⟩ := seq_eq_accepted_iff.1 h
      obtain ⟨_, hpair, rfl⟩ := map_eq_accepted_iff.1 hkv
      obtain ⟨_, s, hkey, hs, rfl⟩ := seq_eq_accepted_iff.1 hpair
      cases hkey
      have htext := eq_heldText_of_text (under_eq_accepted_iff.1 hs)
      refine ih hrest fun other => ?_
      by_cases hother : other = key
      · subst hother
        rw [Entries.get?_put_self, Labels.get?_set_self, Option.map_some, htext]
      · rw [Entries.get?_put_ne _ _ (by simpa using Ne.symm hother), Labels.get?_set_ne _ _ hother,
          hl]

theorem get?_of_labels {es : Entries} {l : Labels} (h : labels (.map es) = .accepted l)
    (name : String) : l.get? name = ((Entries.ofList es).get? name).map Value.heldText := by
  obtain ⟨kvs, hkvs, rfl⟩ := map_eq_accepted_iff.1 h
  have hempty (name : String) :
      (Entries.get? [] name).map Value.heldText = Labels.empty.get? name := rfl
  exact (get?_foldl_set hkvs hempty name).symm

end Check

theorem Hash.ofTexts_eq (parts : List (Option String)) :
    ofTexts parts = ofTexts ((parts.map (·.getD "")).map some) := by
  unfold ofTexts addTexts
  rw [List.map_map, List.foldl_map]
  rfl

theorem Reference.texts_of_ofValue {v : Value} {r : Reference} (h : ofValue v = .accepted r) :
    r.name.getD "" = v.textIn "name" ∧ r.uid.getD "" = v.textIn "uid" := by
  obtain ⟨es, rfl, hread⟩ := record_eq_accepted_iff.1 h
  simp only [seq_eq_accepted_iff, map_eq_accepted_iff] at hread
  obtain ⟨_, _, ⟨_, _, ⟨_, _, ⟨_, uid, ⟨_, name, ⟨_, _, ⟨_, -, rfl⟩, -, rfl⟩, hname, rfl⟩, huid,
    rfl⟩, -, rfl⟩, -, rfl⟩, -, rfl⟩ := hread
  exact ⟨getD_eq_textIn_of_optional hname, getD_eq_textIn_of_optional huid⟩

namespace Finding

/-- What the identity depends on: seven texts and the identity that the producer asserts. -/
structure Content where
  resourceName : String
  resourceUid : String
  policy : String
  rule : String
  status : String
  category : String
  message : String
  asserted : String
  deriving DecidableEq, Repr

namespace Content

def primaryIn (doc : Value) : Value :=
  match doc.get? "resources" with
  | some (.list (v :: _)) => v
  | _ => .null

def propertiesIn (doc : Value) : Value :=
  match doc.get? "properties" with
  | some (.map es) => .map (Entries.ofList es)
  | _ => .null

def ofDocument (doc : Value) : Content where
  resourceName := (primaryIn doc).textIn "name"
  resourceUid := (primaryIn doc).textIn "uid"
  policy := doc.textIn "policy"
  rule := doc.textIn "rule"
  status := doc.textIn "result"
  category := doc.textIn "category"
  message := doc.textIn "message"
  asserted := (propertiesIn doc).textIn "resultID"

def texts (c : Content) : List String :=
  [c.resourceName, c.resourceUid, c.policy, c.rule, c.status, c.category, c.message]

def identity (c : Content) : String :=
  if c.asserted = "" then decimal (Hash.ofTexts (c.texts.map some)) else c.asserted

theorem decimal_ne_empty (n : Int) : decimal n ≠ "" := by
  unfold decimal intDigits
  rw [Ne, String.ofList_eq_empty_iff]
  split
  · exact List.cons_ne_nil _ _
  · exact Nat.toDigits_ne_nil

theorem identity_ne_empty (c : Content) : c.identity ≠ "" := by
  unfold identity
  split
  · exact decimal_ne_empty _
  · assumption

variable {es : Entries}

theorem texts_of_resources {rs : List Reference}
    (h : withDefault es "resources" [] (listOf Reference.ofValue) = .accepted rs) :
    (rs.head?.bind (·.name)).getD "" = (primaryIn (.map es)).textIn "name" ∧
    (rs.head?.bind (·.uid)).getD "" = (primaryIn (.map es)).textIn "uid" := by
  unfold primaryIn Value.get?
  rcases withDefault_eq_accepted_iff.1 h with ⟨hv, rfl⟩ | ⟨v, hv, hread⟩
  · simp only [hv]
    exact ⟨rfl, rfl⟩
  · simp only [hv]
    cases v with
    | list vs =>
      cases vs with
      | nil =>
        cases hread
        exact ⟨rfl, rfl⟩
      | cons w ws =>
        obtain ⟨_, rest, hw, -, rfl⟩ := seq_eq_accepted_iff.1 hread
        obtain ⟨r, hr, rfl⟩ := map_eq_accepted_iff.1 hw
        exact Reference.texts_of_ofValue (under_eq_accepted_iff.1 hr)
    | _ => cases hread

theorem get?_properties {l : Labels} (h : withDefault es "properties" .empty labels = .accepted l)
    (name : String) : (l.get? name).getD "" = (propertiesIn (.map es)).textIn name := by
  unfold propertiesIn Value.get?
  rcases withDefault_eq_accepted_iff.1 h with ⟨hv, rfl⟩ | ⟨v, hv, hread⟩
  · simp only [hv]
    rfl
  · simp only [hv]
    cases v with
    | map props => rw [get?_of_labels hread, Value.textIn_map]
    | _ => cases hread

end Content

structure ReadFrom (es : Entries) (f : Finding) : Prop where
  policy : ∃ s, required es "policy" text = .accepted s ∧ f.policy = some s
  rule : Check.optional es "rule" text = .accepted f.rule
  resources : withDefault es "resources" [] (listOf Reference.ofValue) = .accepted f.resources
  message : Check.optional es "message" text = .accepted f.message
  status : withDefault es "result" none (vocabulary "PolicyResult") = .accepted f.status
  properties : withDefault es "properties" .empty labels = .accepted f.properties
  category : Check.optional es "category" text = .accepted f.category

theorem readFrom_of_ofValue {es : Entries} {f : Finding} (h : ofValue (.map es) = .accepted f) :
    ReadFrom es f := by
  simp only [ofValue, record, seq_eq_accepted_iff, map_eq_accepted_iff] at h
  obtain ⟨_, _, ⟨_, _, ⟨_, _, ⟨_, _, ⟨_, _, ⟨_, _, ⟨_, _, ⟨_, _, ⟨_, _, ⟨_, _, ⟨_, _, ⟨_, _,
    ⟨_, -, rfl⟩, ⟨policy, hpolicy, rfl⟩, rfl⟩, hrule, rfl⟩, hresources, rfl⟩, -, rfl⟩, hmessage,
    rfl⟩, hstatus, rfl⟩, -, rfl⟩, hproperties, rfl⟩, -, rfl⟩, hcategory, rfl⟩, -, rfl⟩, -, rfl⟩ := h
  exact ⟨⟨policy, hpolicy, rfl⟩, hrule, hresources, hmessage, hstatus, hproperties, hcategory⟩

theorem ReadFrom.content {es : Entries} {f : Finding} (h : ReadFrom es f) :
    f.content.map (·.getD "") = (Content.ofDocument (.map es)).texts := by
  obtain ⟨policy, hpolicy, hsome⟩ := h.policy
  obtain ⟨hname, huid⟩ := Content.texts_of_resources h.resources
  have hstatus := getD_eq_textIn (fun _ _ => getD_eq_heldText_of_vocabulary) h.status
  simp only [Finding.content, List.map_cons, List.map_nil, resource?, hname, huid, hsome, hstatus,
    Option.getD_some, eq_textIn_of_required hpolicy, getD_eq_textIn_of_optional h.rule,
    getD_eq_textIn_of_optional h.category, getD_eq_textIn_of_optional h.message]
  rfl

theorem identity_of_settled_eq_none {f : Finding} (h : f.settled = none) :
    f.identity = if (f.properties.get? "resultID").getD "" = "" then f.fingerprint
      else (f.properties.get? "resultID").getD "" := by
  unfold identity asserted?
  rw [h]
  cases f.properties.get? "resultID" with
  | none => rfl
  | some s => by_cases hs : s = "" <;> simp [Option.filter, hs]

theorem identity_eq_of_ofValue {doc : Value} {f : Finding} (h : ofValue doc = .accepted f) :
    f.identity = (Content.ofDocument doc).identity := by
  obtain ⟨es, rfl, -⟩ := record_eq_accepted_iff.1 h
  have hread := readFrom_of_ofValue h
  have hasserted := Content.get?_properties hread.properties "resultID"
  rw [identity_of_settled_eq_none (fresh_of_ofValue h).settled, hasserted, fingerprint,
    Hash.ofTexts_eq, hread.content]
  rfl

/-- Documents with the same content give findings with the same identity, whatever else they say. No
identity is empty, with resources or without. -/
theorem identity_of_content {doc doc' : Value} {f f' : Finding} (h : ofValue doc = .accepted f)
    (h' : ofValue doc' = .accepted f') :
    (Content.ofDocument doc = Content.ofDocument doc' → f.identity = f'.identity) ∧
    f.identity ≠ "" ∧ f'.identity ≠ "" := by
  rw [identity_eq_of_ofValue h, identity_eq_of_ofValue h']
  exact ⟨congrArg Content.identity, Content.identity_ne_empty _, Content.identity_ne_empty _⟩

theorem identity_of_content_rerun :
    let doc : Value := .record [("policy", .text "p"), ("result", .text "fail"),
      ("resources", .list [.record [("kind", .text "Pod"), ("name", .text "web")]]),
      ("severity", .text "high"), ("resourceSelector", .record [])]
    let doc' : Value := .record [("timestamp", .record [("seconds", .int 5)]),
      ("properties", .record [("run", .text "2"), ("resultID", .text "")]), ("other", .int 1),
      ("message", .text ""),
      ("resources", .list [.record [("name", .text "web"), ("uid", .null)], .record []]),
      ("result", .text "fail"), ("priority", .int 1), ("policy", .text "p")]
    ∃ f f', ofValue doc = .accepted f ∧ ofValue doc' = .accepted f' ∧ f ≠ f' ∧
      f.identity = f'.identity ∧ f.identity ≠ "" := by
  intro doc doc'
  have h : ofValue doc = .accepted _ := rfl
  have h' : ofValue doc' = .accepted _ := rfl
  obtain ⟨hsame, hne, -⟩ := identity_of_content h h'
  exact ⟨_, _, h, h', by decide, hsame (by decide), hne⟩

end Finding

end PolicyAudit
