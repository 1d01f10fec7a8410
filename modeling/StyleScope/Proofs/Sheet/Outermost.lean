import StyleScope.Proofs.Json.Success
import StyleScope.Sheet.Nesting
import StyleScope.Sheet.Read

/-!
# Outermost nodes

An outermost node is read straight from the text and any other one from a JSON value. Both give the
same node, but only the name of its kind is accepted of an outermost node and not its index.
-/

namespace StyleScope

open Json (Mismatch Outcome Reader decoded)

namespace Node

/-! ## Kinds -/

/-- The kind that a JSON value names. -/
def Kind.ofTag? : Json → Option Kind
  | .string name => (ofName name).toOption
  | _ => none

/-- Whether a JSON value is a name, as far as the kind of a node goes. -/
def Kind.isName : Json → Bool
  | .string _ => true
  | _ => false

/-- What a JSON value gives for the kind of a node, if it gives it once. -/
def tag? : Json → Option Json
  | .object members =>
    match members.filter (·.1 = tagName) with
    | [(_, tag)] => some tag
    | _ => none
  | .list (tag :: _) => some tag
  | _ => none

/-- Whether a JSON value gives the kind of a node by name. -/
def namesKind (json : Json) : Bool := (tag? json).any Kind.isName

/-- The node that a JSON value is read as if it is an outermost one. -/
def ofOutermost? (json : Json) : Option Node :=
  if namesKind json then (ofJson json).toOption else none

theorem Kind.ofTag?_eq (json : Json) :
    ofTag? json = if isName json then (ofJson json).toOption else none := by
  cases json <;> rfl

theorem literal_decoded {α : Type} {f : Json → Option α} {json : Json} (h : f json = none)
    (letters text : List Char) : (Json.literal json letters text).read?.bind (decoded f) = none := by
  fun_induction Json.literal json letters text with
  | case1 text => exact Json.decoded_eq_none h
  | case2 => rfl
  | case3 _ _ _ ih => exact ih
  | case4 => rfl

theorem scalar_decoded {α : Type} {f : Json → Option α} {text : List Char}
    (hnull : f .null = none) (hbool : ∀ b, f (.bool b) = none) (hnumber : ∀ n, f (.number n) = none)
    (hstring : ∀ rest, text = '"' :: rest → ∀ s, f (.string s) = none) :
    (Json.scalar text).read?.bind (decoded f) = none := by
  unfold Json.scalar
  split
  · rfl
  · exact literal_decoded hnull ..
  · exact literal_decoded (hbool true) ..
  · exact literal_decoded (hbool false) ..
  · rw [Json.map_bind_decoded]
    simp only [hstring _ rfl, Json.bind_decoded_none]
  · rw [Json.map_bind_decoded]
    simp only [hnumber, Json.bind_decoded_none]
  · split
    · rw [Json.map_bind_decoded]
      simp only [hnumber, Json.bind_decoded_none]
    · rfl

theorem closedBy_decoded {α β : Type} (close : List Char → Json.Closing) {f : α → Option β}
    {o : Outcome α} (h : o.read?.bind (decoded f) = none) :
    (o.closedBy close).read?.bind (decoded f) = none := by
  -- Nothing is made of it, as of any fault.
  have hfault : o.read?.bind (decoded f) = (Outcome.fault (.malformed .endInValue) 0).read? := h
  exact Json.closedBy_bind_decoded close f hfault

theorem list_decoded_none {α : Type} {f : Json → Option α} (h : ∀ items, f (.list items) = none)
    (inner : Reader Json) (first : Bool) (text : List Char) :
    (Json.listItems inner first text).read?.bind (decoded f) = none := by
  rw [Json.listItems, Json.map_bind_decoded]
  simp only [h, Json.bind_decoded_none]

theorem object_decoded_none {α : Type} {f : Json → Option α}
    (h : ∀ members, f (.object members) = none) (inner : Reader Json) (text : List Char) :
    (Json.objectMembers inner text).read?.bind (decoded f) = none := by
  rw [Json.objectMembers, Json.map_bind_decoded]
  simp only [h, Json.bind_decoded_none]

theorem quoted_decoded {α : Type} (f : Json → Option α) (levels : Nat) {text rest : List Char}
    (h : Json.skipBlank text = '"' :: rest) :
    ((Json.value levels).run text).read?.bind (decoded f) =
      (Json.quotedText.run rest).read?.bind (decoded fun s => f (.string s)) := by
  have hrun : (Json.value levels).run text = (Json.quotedText.run rest).map .string := by
    cases levels with
    | zero =>
      simp only [Json.value, Json.unbracketed, h]
      rfl
    | succ levels =>
      simp only [Json.value, Json.nested, Json.bracketed, h]
      rfl
  rw [hrun, Json.map_bind_decoded]

theorem unquoted_decoded {α : Type} {f : Json → Option α} (hnull : f .null = none)
    (hbool : ∀ b, f (.bool b) = none) (hnumber : ∀ n, f (.number n) = none)
    (hlist : ∀ items, f (.list items) = none) (hobject : ∀ members, f (.object members) = none)
    (levels : Nat) {text : List Char} (h : ∀ rest, Json.skipBlank text = '"' :: rest → False) :
    ((Json.value levels).run text).read?.bind (decoded f) = none := by
  have hscalar : (Json.scalar (Json.skipBlank text)).read?.bind (decoded f) = none := by
    apply scalar_decoded hnull hbool hnumber
    intro rest heq
    exact absurd heq (h rest)
  cases levels with
  | zero =>
    simp only [Json.value, Json.unbracketed]
    split
    · rfl
    · rfl
    · exact hscalar
  | succ levels =>
    simp only [Json.value, Json.nested, Json.bracketed]
    split
    · exact closedBy_decoded _ (list_decoded_none hlist ..)
    · exact closedBy_decoded _ (object_decoded_none hobject ..)
    · exact hscalar

theorem kind_decoded (levels : Nat) (text : List Char) :
    ((Json.value levels).run text).read?.bind (decoded Kind.ofTag?) =
      (Kind.reader.run text).read? := by
  unfold Kind.reader
  simp only
  split
  · rename_i rest heq
    rw [quoted_decoded _ levels heq, Outcome.read?_bind]
    apply Option.bind_congr
    rintro ⟨name, rest⟩ _
    simp only [decoded, Kind.ofTag?]
    cases Kind.ofName name <;> rfl
  · rename_i hquote
    rw [unquoted_decoded rfl (fun _ => rfl) (fun _ => rfl) (fun _ => rfl) (fun _ => rfl) levels hquote,
      Json.notThis_read?]

/-! ## Members -/

/-- What is known of a node from its members so far, the last member first. -/
def Draft.ofMembers? (earlier : List Json.Member) : Option Draft :=
  match earlier.filter (·.1 = tagName) with
  | [] => some { fields := earlier.filter (·.1 ≠ tagName) }
  | [(_, tag)] =>
    (Kind.ofTag? tag).map fun kind =>
      { kind := some kind, fields := earlier.filter (·.1 ≠ tagName) }
  | _ => none

theorem ofMembers?_field {name : String} (h : name ≠ tagName) (json : Json)
    (earlier : List Json.Member) :
    Draft.ofMembers? ((name, json) :: earlier) =
      (Draft.ofMembers? earlier).map fun draft =>
        { draft with fields := (name, json) :: draft.fields } := by
  simp only [Draft.ofMembers?, List.filter_cons, h, decide_false, Bool.false_eq_true, ↓reduceIte,
    ne_eq, not_false_eq_true, decide_true]
  split
  · rfl
  · rw [Option.map_map]
    rfl
  · rfl

theorem ofMembers?_tag (tag : Json) (earlier : List Json.Member) :
    Draft.ofMembers? ((tagName, tag) :: earlier) =
      (Draft.ofMembers? earlier).bind fun draft =>
        match draft.kind with
        | some _ => none
        | none => (Kind.ofTag? tag).map fun kind => { draft with kind := some kind } := by
  simp only [Draft.ofMembers?, List.filter_cons, decide_true, ↓reduceIte, ne_eq, not_true_eq_false,
    decide_false, Bool.false_eq_true]
  generalize earlier.filter (·.1 = tagName) = tags
  rcases tags with _ | ⟨⟨name, tag'⟩, _ | ⟨second, tags⟩⟩
  · rfl
  · cases htag : Kind.ofTag? tag' <;> simp [htag]
  · rfl

theorem member_decoded (levels : Nat) (earlier : List Json.Member) (name : String)
    (text : List Char) :
    ((Json.member (Json.value levels) earlier name).run text).read?.bind
        (decoded Draft.ofMembers?) =
      (Draft.ofMembers? earlier).bind fun draft =>
        ((member (Json.value levels) draft name).run text).read? := by
  change ((Json.colon.run text).bind fun _ rest =>
    ((Json.value levels).run rest).map fun json => (name, json) :: earlier).read?.bind _ = _
  rw [Outcome.read?_bind, Option.bind_assoc]
  simp only [Json.map_bind_decoded]
  by_cases hname : name = tagName
  · subst hname
    simp only [ofMembers?_tag]
    rcases Draft.ofMembers? earlier with _ | draft
    · simp only [Option.bind_none, Json.bind_decoded_none, Option.bind_fun_none]
    · simp only [Option.bind_some, member, ↓reduceIte]
      rcases hkind : draft.kind with _ | kind
      · change _ = ((Json.colon.run text).bind fun _ rest =>
          (Kind.reader.run rest).map fun kind => { draft with kind := some kind }).read?
        rw [Outcome.read?_bind]
        apply Option.bind_congr
        intro colon _
        simp only [Outcome.read?_map, ← kind_decoded levels colon.2]
        rcases ((Json.value levels).run colon.2).read? with _ | read
        · rfl
        · cases hf : Kind.ofTag? read.1 <;> simp [decoded, hf]
      · -- The kind is given twice, which neither of them reads.
        simp only [Json.bind_decoded_none, Option.bind_fun_none]
        rfl
  · simp only [ofMembers?_field hname, member, if_neg hname]
    rcases Draft.ofMembers? earlier with _ | draft
    · simp only [Option.bind_none, Option.map_none, Json.bind_decoded_none, Option.bind_fun_none]
    · change _ = ((Json.colon.run text).bind fun _ rest =>
        ((Json.value levels).run rest).map fun json =>
          { draft with fields := (name, json) :: draft.fields }).read?
      rw [Outcome.read?_bind]
      apply Option.bind_congr
      intro colon _
      simp only [Outcome.read?_map]
      cases ((Json.value levels).run colon.2).read? <;> rfl

/-! ## Nodes -/

/-- The kind and the fields of a node from its members, the last member first. -/
def body? (earlier : List Json.Member) : Option (Kind × Json) :=
  (Draft.ofMembers? earlier).bind fun draft => draft.finish.toOption

def ofBody? (body : Kind × Json) : Option Node := (ofBody ofJson body.1 body.2).toOption

theorem ofOutermost?_object (earlier : List Json.Member) :
    ofOutermost? (.object earlier.reverse) = (body? earlier).bind ofBody? := by
  rw [ofOutermost?, ofJson_eq]
  simp only [namesKind, tag?, ofJsonWith, kindOfMembers, body?, Draft.ofMembers?, List.filter_reverse]
  generalize earlier.filter (·.1 = tagName) = tags
  rcases tags with _ | ⟨⟨name, tag⟩, _ | ⟨second, tags⟩⟩
  · rfl
  · simp only [List.reverse_singleton, Option.any_some, Kind.ofTag?_eq, Json.toOption_bind]
    split <;> cases (Kind.ofJson tag).toOption <;> rfl
  · have hlength : 2 ≤ ((name, tag) :: second :: tags).reverse.length := by simp
    generalize ((name, tag) :: second :: tags).reverse = written at hlength
    rcases written with _ | ⟨first, _ | ⟨second, written⟩⟩
    · rfl
    · simp at hlength
    · rfl

theorem ofOutermost?_list (tag : Json) (items : List Json) :
    ofOutermost? (.list (tag :: items)) =
      (Kind.ofTag? tag).bind fun kind => ofBody? (kind, .list items) := by
  rw [ofOutermost?, ofJson_eq, Kind.ofTag?_eq]
  simp only [namesKind, tag?, Option.any_some, ofJsonWith, Json.toOption_bind]
  split <;> rfl

theorem object_decoded (levels : Nat) (text : List Char) :
    (Json.objectMembers (Json.value levels) text).read?.bind (decoded ofOutermost?) =
      ((bodyOfObject (Json.value levels) text).check fun body =>
        ofBody ofJson body.1 body.2).read? := by
  have hmembers := Json.members_decoded (member_decoded levels) true [] text
  rw [show Draft.ofMembers? [] = some {} from rfl, Option.bind_some] at hmembers
  rw [Json.objectMembers, Json.map_bind_decoded, Json.read?_check, bodyOfObject, Json.read?_check,
    ← hmembers, Option.bind_assoc, Option.bind_assoc]
  apply Option.bind_congr
  intro read _
  simp only [decoded, ofOutermost?_object, body?]
  rcases Draft.ofMembers? read.1 with _ | draft
  · rfl
  · cases hf : draft.finish <;> simp [hf] <;> rfl

theorem tagged_decoded (tag : Json) (o : Outcome (List Json)) :
    (o.map (tag :: ·)).read?.bind (decoded fun items => ofOutermost? (.list items)) =
      (Kind.ofTag? tag).bind fun kind =>
        (o.map Json.list).read?.bind (decoded fun body => ofBody? (kind, body)) := by
  cases o with
  | read items rest =>
    simp only [Outcome.map_read, Outcome.read?_read, Option.bind_some, decoded, ofOutermost?_list]
    cases Kind.ofTag? tag <;> rfl
  | misfit what rest => cases Kind.ofTag? tag <;> rfl
  | fault what unread => cases Kind.ofTag? tag <;> rfl

theorem list_decoded (levels : Nat) (text : List Char) :
    (Json.listItems (Json.value levels) true text).read?.bind (decoded ofOutermost?) =
      ((bodyOfList (Json.value levels) text).check fun body =>
        ofBody ofJson body.1 body.2).read? := by
  rw [Json.listItems, Json.map_bind_decoded, Json.read?_check, bodyOfList, Json.items_eq]
  simp only [Outcome.read?_bind, Option.bind_assoc]
  apply Option.bind_congr
  rintro ⟨more, rest⟩ _
  cases more with
  | false => rfl
  | true =>
    simp only [↓reduceIte, Outcome.read?_bind, ← kind_decoded levels, Option.bind_assoc]
    apply Option.bind_congr
    rintro ⟨tag, rest⟩ _
    apply (tagged_decoded tag (Json.items (Json.value levels) false rest)).trans
    unfold decoded
    rcases Kind.ofTag? tag with _ | kind
    · rfl
    · exact (Json.map_bind_decoded ..).symm

theorem closedBy_outermost (close : List Char → Json.Closing) {o : Outcome Json}
    {o' : Outcome (Kind × Json)}
    (h : o.read?.bind (decoded ofOutermost?) =
      (o'.check fun body => ofBody ofJson body.1 body.2).read?) :
    (o.closedBy close).read?.bind (decoded ofOutermost?) =
      ((o'.closedBy close).check fun body => ofBody ofJson body.1 body.2).read? := by
  rw [Json.closedBy_bind_decoded close _ h, Json.read?_check]
  exact (Json.closedBy_bind_decoded close _ (Json.read?_check ..).symm).symm

/-- An outermost node is read as the value that stands in its place, if it names its kind. -/
theorem reader_decoded (levels : Nat) (text : List Char) :
    ((Json.value levels).run text).read?.bind (decoded ofOutermost?) =
      ((reader levels).run text).read? := by
  change _ = (((body levels).run text).check fun body => ofBody ofJson body.1 body.2).read?
  have hscalar : ∀ text, (Json.scalar text).read?.bind (decoded ofOutermost?) =
      ((Json.notThis (.tagged "Node") text).check fun body : Kind × Json =>
        ofBody ofJson body.1 body.2).read? := by
    intro text
    rw [scalar_decoded rfl (fun _ => rfl) (fun _ => rfl) (fun _ _ _ => rfl), Json.read?_check,
      Json.notThis_read?]
    rfl
  cases levels with
  | zero =>
    simp only [Json.value, body, Json.eitherBracket, Json.unbracketed]
    split
    · rfl
    · rfl
    · exact hscalar _
  | succ levels =>
    simp only [Json.value, Json.nested, body, Json.eitherBracket, Json.bracketed]
    split
    · exact closedBy_outermost _ (list_decoded ..)
    · exact closedBy_outermost _ (object_decoded ..)
    · exact hscalar _

end Node

end StyleScope
