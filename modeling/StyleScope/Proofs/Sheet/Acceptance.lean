import StyleScope.Proofs.Json.Ignoring
import StyleScope.Proofs.Sheet.Meaning
import StyleScope.Proofs.Sheet.Placement

/-!
# Which texts are accepted

Among texts in the documented form, just those that spell a sheet are read, and they are read as
that sheet. The members of the sheet come straight from the text, each at its turn; what is inside
the nodes comes from their values.
-/

namespace StyleScope

open Json (Outcome Reader Spelling Blanks Required Optional IsObject IsList decoded)

/-! ## Outermost nodes -/

namespace Node

theorem ofOutermost?_of_fits {json : Json} (h : json.fits (.one .node)) :
    ofOutermost? json = (ofJson json).toOption := by
  unfold ofOutermost?
  split
  · rfl
  · rename_i hname
    cases hjson : ofJson json with
    | error what => rfl
    | ok node =>
      exfalso
      obtain ⟨members, rfl, ⟨tag, hvalues, rfl⟩, -⟩ := (ofJson_eq_ok_iff_tagged h).mp hjson
      obtain ⟨member, hfilter, htag⟩ := List.map_eq_singleton_iff.mp hvalues
      apply hname
      have htag? : tag? (.object members) = some member.2 := by
        unfold tag? tagName
        simp only [hfilter]
      rw [namesKind, htag?, htag]
      rfl

theorem mapM_ofOutermost? {items : List Json} (h : Json.fitsItems .node items) :
    items.mapM ofOutermost? = (items.mapM ofJson).toOption := by
  induction items with
  | nil => rfl
  | cons item items ih =>
    rw [Json.fitsItems, Bool.and_eq_true] at h
    rw [List.mapM_cons, List.mapM_cons, Json.toOption_bind, ofOutermost?_of_fits h.1, ih h.2]
    cases ofJson item with
    | error what => rfl
    | ok node => cases items.mapM ofJson <;> rfl

end Node

namespace Sheet

/-! ## Members -/

/-- The string that a value is. -/
def string? : Json → Option String
  | .string s => some s
  | _ => none

/-- The outermost nodes that a value is a list of. -/
def nodes? : Json → Option (List Node)
  | .list items => items.mapM Node.ofOutermost?
  | _ => none

/-- What is known of a field once a value is there for it, if there was none before. -/
def fill? {α : Type} (read : Json → Option α) (known : Option α) (json : Json) :
    Option (Option α) :=
  if known.isSome then none else (read json).map some

/-- What a member adds to what is known of a sheet. -/
def Draft.add? (draft : Draft) (member : Json.Member) : Option Draft :=
  if member.1 = "sourceName" then
    (fill? string? draft.sourceName member.2).map fun sourceName => { draft with sourceName }
  else if member.1 = "nodes" then
    (fill? nodes? draft.nodes member.2).map fun nodes => { draft with nodes }
  else some draft

theorem string_decoded (levels : Nat) (text : List Char) :
    ((Json.value levels).run text).read?.bind (decoded string?) =
      (Reader.string.run text).read? := by
  unfold Reader.string
  simp only
  split
  · rename_i rest heq
    rw [Node.quoted_decoded _ levels heq]
    unfold string?
    cases (Json.quotedText.run rest).read? <;> rfl
  · rename_i hquote
    rw [Node.unquoted_decoded rfl (fun _ => rfl) (fun _ => rfl) (fun _ => rfl) (fun _ => rfl) levels
      hquote, Json.notThis_read?]

theorem nodeList_read?_none (levels : Nat) {text : List Char}
    (h : ∀ rest, Json.skipBlank text ≠ '[' :: rest) :
    ((nodeList levels).run text).read? = none := by
  unfold nodeList Reader.list
  simp only
  split
  · exact absurd ‹Json.skipBlank text = _› (h _)
  · exact absurd ‹Json.skipBlank text = _› (h _)
  · rw [Json.notThis_read?]

theorem nodeList_decoded (levels : Nat) (text : List Char) :
    ((Json.value levels).run text).read?.bind (decoded nodes?) =
      ((nodeList levels).run text).read? := by
  have hscalar : (Json.scalar (Json.skipBlank text)).read?.bind (decoded nodes?) = none :=
    Node.scalar_decoded rfl (fun _ => rfl) (fun _ => rfl) (fun _ _ _ => rfl)
  cases levels with
  | zero =>
    simp only [Json.value, Json.unbracketed]
    split
    · rename_i heq
      simp only [nodeList, Reader.list, heq]
      rfl
    · rename_i heq
      rw [nodeList_read?_none 0 (by simp [heq])]
      rfl
    · rename_i hlist _
      rw [nodeList_read?_none 0 hlist, hscalar]
  | succ levels =>
    simp only [Json.value, Json.nested, Json.bracketed]
    split
    · rename_i rest heq
      simp only [nodeList, Reader.list, heq]
      apply Json.closedBy_bind_decoded
      rw [Json.listItems, Json.map_bind_decoded]
      exact Json.items_decoded (Node.reader_decoded levels) true rest
    · rename_i rest heq
      rw [nodeList_read?_none _ (by simp [heq])]
      exact Node.closedBy_decoded _ (Node.object_decoded_none (fun _ => rfl) ..)
    · rename_i hlist _
      rw [nodeList_read?_none _ hlist, hscalar]

theorem string_run_blanks (blanks : Blanks) (text : List Char) :
    Reader.string.run (blanks.text ++ text) = Reader.string.run text := by
  unfold Reader.string
  simp only [Json.skipBlank_blanks]

theorem string_gives (levels : Nat) (s : Spelling) {rest : List Char} (hrest : Json.Stops rest) :
    (Reader.string.run (s.text ++ rest)).Gives ((s.within? levels).bind string?) rest :=
  (Json.value_gives levels s hrest).decoded (string_decoded levels _)

theorem nodes_give (levels : Nat) (s : Spelling) {rest : List Char} (hrest : Json.Stops rest) :
    ((nodeList levels).run (s.text ++ rest)).Gives ((s.within? levels).bind nodes?) rest :=
  (Json.value_gives levels s hrest).decoded (nodeList_decoded levels _)

theorem field_gives (levels : Nat) (draft : Draft) {name : String}
    (hname : name = "sourceName" ∨ name = "nodes") (afterName before : Blanks) (s : Spelling)
    {rest : List Char} (hrest : Json.Stops rest) :
    ((member levels draft name).run
      (afterName.text ++ (':' :: (before.text ++ (s.text ++ rest))))).Gives
        ((s.within? levels).bind fun json => draft.add? (name, json)) rest := by
  unfold member Draft.add? fill?
  rcases hname with rfl | rfl
  · simp only [↓reduceIte]
    split
    · rw [Option.map_none, Option.bind_fun_none]
      exact Outcome.gives_misfit _ _ _
    · rw [Json.colon_bind_run]
      simp only [Option.map_map]
      change (Outcome.map _ (Reader.string.run _)).Gives _ _
      rw [string_run_blanks]
      have hread := (string_gives levels s hrest).map fun sourceName =>
        { draft with sourceName := some sourceName }
      rw [Option.map_bind] at hread
      exact hread
  · simp only [↓reduceIte, show ("nodes" = "sourceName") = False by simp]
    split
    · rw [Option.map_none, Option.bind_fun_none]
      exact Outcome.gives_misfit _ _ _
    · rw [Json.colon_bind_run]
      simp only [Option.map_map]
      change (Outcome.map _ ((nodeList levels).run _)).Gives _ _
      rw [nodeList_blanks]
      have hread := (nodes_give levels s hrest).map fun nodes =>
        { draft with nodes := some nodes }
      rw [Option.map_bind] at hread
      exact hread

theorem other_gives (levels : Nat) (draft : Draft) {name : String}
    (hname : ¬ (name = "sourceName" ∨ name = "nodes")) (afterName before : Blanks) (s : Spelling)
    {rest : List Char} (hrest : Json.Stops rest) :
    ((member levels draft name).run
      (afterName.text ++ (':' :: (before.text ++ (s.text ++ rest))))).Gives (some draft) rest := by
  obtain ⟨hsource, hnodes⟩ := not_or.mp hname
  unfold member
  rw [if_neg hsource, if_neg hnodes, Json.colon_bind_run]
  change (Outcome.map _ (Json.ignored.run _)).Gives _ _
  rw [Json.ignored_spelling before s hrest]
  exact Outcome.gives_read _ _

theorem add?_other (draft : Draft) {name : String}
    (hname : ¬ (name = "sourceName" ∨ name = "nodes")) (json : Json) :
    draft.add? (name, json) = some draft := by
  obtain ⟨hsource, hnodes⟩ := not_or.mp hname
  unfold Draft.add?
  rw [if_neg hsource, if_neg hnodes]

theorem member_gives {levels : Nat} (draft : Draft) (name : String) (afterName before : Blanks)
    {s : Spelling} {json : Json} (hvalue : s.within? levels = some json) {rest : List Char}
    (hrest : Json.Stops rest) :
    ((member levels draft name).run
      (afterName.text ++ (':' :: (before.text ++ (s.text ++ rest))))).Gives
        (draft.add? (name, json)) rest := by
  by_cases hname : name = "sourceName" ∨ name = "nodes"
  · have hgives := field_gives levels draft hname afterName before s hrest
    rw [hvalue] at hgives
    exact hgives
  · rw [add?_other draft hname json]
    exact other_gives levels draft hname afterName before s hrest

theorem members_give {levels : Nat} (first : Bool) (draft : Draft) {inner : List Spelling.Member}
    {members : List Json.Member} (hvalue : Spelling.membersWithin? levels inner = some members)
    (rest : List Char) :
    (Json.members (member levels) first draft
      (Spelling.textOfMembers first inner ++ '}' :: rest)).Gives
        (members.foldlM Draft.add? draft) ('}' :: rest) := by
  induction inner generalizing first draft members with
  | nil =>
    rw [Spelling.membersWithin?_nil] at hvalue
    cases hvalue
    rw [Spelling.textOfMembers, List.nil_append, Json.members_eq, Json.nextName_brace]
    exact Outcome.gives_read _ _
  | cons m inner ih =>
    obtain ⟨before, letters, afterName, beforeValue, s, after⟩ := m
    rw [Spelling.membersWithin?_cons] at hvalue
    obtain ⟨name, hname, hvalue⟩ := Option.bind_eq_some_iff.mp hvalue
    obtain ⟨json, hjson, hvalue⟩ := Option.bind_eq_some_iff.mp hvalue
    obtain ⟨others, hothers, rfl⟩ := Option.map_eq_some_iff.mp hvalue
    have hstops := Json.stops_blanks after (Json.stops_members inner rest)
    rw [Json.members_spelled _ _ _ _ hname, List.foldlM_cons]
    apply (member_gives draft name afterName beforeValue hjson hstops).bind
    intro draft' _
    rw [Json.members_blanks]
    exact ih false draft' hothers

/-! ## Fields -/

theorem foldlM_fill?_eq_some_iff {α : Type} {read : Json → Option α} {values : List Json}
    {last : Option α} :
    values.foldlM (fill? read) none = some last ↔
      (values = [] ∧ last = none) ∨
        ∃ json value, values = [json] ∧ read json = some value ∧ last = some value := by
  rcases values with _ | ⟨json, _ | ⟨second, rest⟩⟩
  · simp [eq_comm]
  · simp [fill?, eq_comm]
  · -- A second value is one too many.
    cases hread : read json <;> simp [fill?, hread]

theorem foldlM_add?_eq_some_iff {members : List Json.Member} {draft last : Draft} :
    members.foldlM Draft.add? draft = some last ↔
      (Json.valuesOf members "sourceName").foldlM (fill? string?) draft.sourceName =
          some last.sourceName ∧
        (Json.valuesOf members "nodes").foldlM (fill? nodes?) draft.nodes = some last.nodes := by
  induction members generalizing draft with
  | nil =>
    obtain ⟨sourceName, nodes⟩ := draft
    obtain ⟨sourceName', nodes'⟩ := last
    simp [Json.valuesOf]
  | cons member members ih =>
    rw [List.foldlM_cons, Json.valuesOf_cons, Json.valuesOf_cons, Draft.add?]
    split
    · rename_i hname
      have hnodes : member.1 ≠ "nodes" := by
        simp [hname]
      rw [if_neg hnodes, List.foldlM_cons]
      cases fill? string? draft.sourceName member.2 <;> simp [ih]
    · split
      · rw [List.foldlM_cons]
        cases fill? nodes? draft.nodes member.2 <;> simp [ih]
      · exact ih

/-- The sheet with these members. -/
def ofMembers? (members : List Json.Member) : Option Sheet :=
  (members.foldlM Draft.add? {}).bind fun draft => (draft.finish (.missing "nodes")).toOption

theorem ofMembers?_eq_some_iff {members : List Json.Member} {sheet : Sheet} :
    ofMembers? members = some sheet ↔
      Optional members "sourceName" (sheet.sourceName = "")
          (fun json => string? json = some sheet.sourceName) ∧
        Required members "nodes" fun json => nodes? json = some sheet.nodes := by
  have hfinish : ∀ draft : Draft, (draft.finish (.missing "nodes")).toOption = some sheet ↔
      draft.sourceName.getD "" = sheet.sourceName ∧ draft.nodes = some sheet.nodes := by
    rintro ⟨sourceName, nodes⟩
    obtain ⟨sourceName', nodes'⟩ := sheet
    unfold Draft.finish
    cases nodes <;> simp [Except.toOption]
  unfold ofMembers? Optional Required
  simp only [Option.bind_eq_some_iff, hfinish, foldlM_add?_eq_some_iff, foldlM_fill?_eq_some_iff]
  constructor
  · rintro ⟨⟨sourceName, nodes⟩, ⟨hsource, hnodes⟩, hname, rfl⟩
    constructor
    · rcases hsource with ⟨hvalues, rfl⟩ | ⟨json, value, hvalues, hread, rfl⟩
      · exact .inl ⟨hvalues, hname.symm⟩
      · exact .inr ⟨json, hvalues, by rw [hread, ← hname]; rfl⟩
    · simpa using hnodes
  · rintro ⟨hsource, json, hvalues, hread⟩
    have hnodes : ∃ json nodes, Json.valuesOf members "nodes" = [json] ∧
        nodes? json = some nodes ∧ some sheet.nodes = some nodes :=
      ⟨json, sheet.nodes, hvalues, hread, rfl⟩
    rcases hsource with ⟨hsource, hname⟩ | ⟨json', hsource, hname⟩
    · exact ⟨⟨none, some sheet.nodes⟩, ⟨.inl ⟨hsource, rfl⟩, .inr hnodes⟩, hname.symm, rfl⟩
    · exact ⟨⟨some sheet.sourceName, some sheet.nodes⟩,
        ⟨.inr ⟨json', _, hsource, hname, rfl⟩, .inr hnodes⟩, rfl, rfl⟩

/-! ## What is meant -/

theorem string?_eq_some_iff {json : Json} {s : String} :
    string? json = some s ↔ StringMeantBy s json := by
  unfold string? StringMeantBy
  cases json <;> simp

/-- The sheet that a value is read as, unless it is a list. -/
def ofJson? : Json → Option Sheet
  | .object members => ofMembers? members
  | _ => none

theorem reader_scalar (levels : Nat) (before : Blanks) {s : Spelling} (h : s.depth = 0)
    (rest : List Char) :
    ((reader (levels + 1)).run (before.text ++ (s.text ++ rest))).Gives none rest :=
  Json.eitherBracket_scalar (levels + 1) before h rest

theorem reader_gives (levels : Nat) (before : Blanks) {s : Spelling} {json : Json}
    (hdepth : s.depth ≤ levels + 1) (hvalue : s.value? = some json)
    (hlist : ∀ items, json ≠ .list items) (rest : List Char) :
    ((reader (levels + 1)).run (before.text ++ (s.text ++ rest))).Gives (ofJson? json) rest := by
  cases s with
  | null =>
    cases hvalue
    exact reader_scalar levels before rfl rest
  | bool b =>
    cases hvalue
    exact reader_scalar levels before rfl rest
  | number n =>
    obtain ⟨number, -, rfl⟩ := Option.map_eq_some_iff.mp hvalue
    exact reader_scalar levels before rfl rest
  | string letters =>
    obtain ⟨string, -, rfl⟩ := Option.map_eq_some_iff.mp hvalue
    exact reader_scalar levels before rfl rest
  | list inside inner =>
    obtain ⟨items, -, rfl⟩ := Option.map_eq_some_iff.mp hvalue
    exact absurd rfl (hlist items)
  | object inside inner =>
    obtain ⟨members, hmembers, rfl⟩ := Option.map_eq_some_iff.mp hvalue
    have hinner : Spelling.membersWithin? levels inner = some members := by
      rw [Spelling.depth, Nat.add_le_add_iff_right] at hdepth
      rw [Spelling.membersWithin?, if_pos hdepth, hmembers]
    exact reader_object_blanks levels before inside inner rest (members_give true {} hinner rest)

def newline : Blanks := ⟨['\n'], List.forall_mem_singleton.mpr rfl⟩

/-- A member with its name spelled as it is. -/
def named (name : String) (value : Spelling) : Spelling.Member :=
  ⟨newline, plainly name.toList, .none, .none, value, .none⟩

def saying (text : String) : Spelling := .string (plainly text.toList)

def placed (line column offset : Nat) : Spelling :=
  .object .none [named "line" (.number (.ofNat line)), named "column" (.number (.ofNat column)),
    named "offset" (.number (.ofNat offset))]

end Sheet

end StyleScope
