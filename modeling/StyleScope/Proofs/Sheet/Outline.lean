import StyleScope.Proofs.Sheet.Keeping

/-!
# The outline of a text

A text is read as the sheet that its value gives, be it an object or a list. What stands in the
members of the outermost object that are no fields does not count: no number in them is too large
and no bracket is nested too deep.
-/

namespace StyleScope

open Json (Outcome Reader Spelling Letter Blanks Member)

/-! ## What counts of a text -/

namespace Json.Spelling

def memberWithin? (levels : Nat) (name : String) (value : Spelling) : Option Json :=
  if ignores (.one .sheet) name then some .null else value.within? levels

def outlineMember? (levels : Nat) (member : Spelling.Member) : Option Json.Member :=
  (Letter.string? member.name).bind fun name =>
    (memberWithin? levels name member.value).map (name, ·)

/-- The value of a text in which no more than `levels` brackets are open at once inside of the
outermost one. -/
def outline? (levels : Nat) : Spelling → Option Json
  | object _ members => (members.mapM (outlineMember? levels)).map .object
  | list _ items => (itemsWithin? levels items).map .list
  | s => s.value?

theorem ignores_iff {name : String} :
    ignores (.one .sheet) name ↔ ¬ (name = "sourceName" ∨ name = "nodes") := by
  rw [ignores, decide_eq_true_eq]
  constructor
  · rintro ⟨-, hother⟩ (rfl | rfl)
    · exact hother _ List.mem_cons_self rfl
    · exact hother _ (List.mem_cons_of_mem _ List.mem_cons_self) rfl
  · intro hname
    refine ⟨rfl, List.forall_mem_cons.mpr ⟨?_, List.forall_mem_singleton.mpr ?_⟩⟩
    · rintro rfl
      exact hname (.inl rfl)
    · rintro rfl
      exact hname (.inr rfl)

theorem mapM_mono {α β : Type} {f g : α → Option β} {as : List α} {bs : List β}
    (h : ∀ a ∈ as, ∀ b, f a = some b → g a = some b) (hf : as.mapM f = some bs) :
    as.mapM g = some bs := by
  induction as generalizing bs with
  | nil => exact hf
  | cons a as ih =>
    obtain ⟨b, bs, hb, hbs, rfl⟩ := mapM_cons_eq_some_iff.mp hf
    refine mapM_cons_eq_some_iff.mpr ⟨b, bs, h a List.mem_cons_self b hb, ih ?_ hbs, rfl⟩
    intro a' hmem
    exact h a' (List.mem_cons_of_mem a hmem)

theorem members_mono {f g : String → Spelling → Option Json} {members : List Spelling.Member}
    {spelled : List Json.Member}
    (h : ∀ member ∈ members, ∀ name json, f name member.value = some json →
      g name member.value = some json)
    (hf : members.mapM (fun member => (Letter.string? member.name).bind fun name =>
      (f name member.value).map (name, ·)) = some spelled) :
    members.mapM (fun member => (Letter.string? member.name).bind fun name =>
      (g name member.value).map (name, ·)) = some spelled := by
  refine mapM_mono ?_ hf
  intro member hmember read hread
  obtain ⟨name, hname, hread⟩ := Option.bind_eq_some_iff.mp hread
  obtain ⟨json, hjson, rfl⟩ := Option.map_eq_some_iff.mp hread
  rw [hname, Option.bind_some, h member hmember name json hjson]
  rfl

theorem value?_of_within? {levels : Nat} {s : Spelling} {json : Json}
    (h : s.within? levels = some json) : s.value? = some json := by
  unfold within? at h
  split at h
  · exact h
  · cases h

theorem depth_le_of_mem {members : List Spelling.Member} {member : Spelling.Member}
    (h : member ∈ members) : member.value.depth ≤ depthOfMembers members := by
  induction members with
  | nil => cases h
  | cons first members ih =>
    obtain ⟨before, name, afterName, beforeValue, value, after⟩ := first
    rw [depthOfMembers]
    rcases List.mem_cons.mp h with rfl | h
    · exact Nat.le_max_left ..
    · exact (ih h).trans (Nat.le_max_right ..)

theorem valueAs?_of_outline? {levels : Nat} {s : Spelling} {json : Json}
    (h : s.outline? levels = some json) : s.valueAs? (.one .sheet) = some json := by
  cases s with
  | object inside members =>
    obtain ⟨spelled, hspelled, rfl⟩ := Option.map_eq_some_iff.mp h
    refine object_valueAs?_eq_some.mpr ⟨spelled, members_mono ?_ hspelled, rfl⟩
    intro member _ name json hjson
    unfold memberWithin? at hjson
    split at hjson
    · rw [memberAs?, if_pos ‹_›, hjson]
    · rw [memberAs?, if_neg ‹_›, value?_of_within? hjson]
  | list inside items =>
    obtain ⟨spelled, hspelled, rfl⟩ := Option.map_eq_some_iff.mp h
    unfold itemsWithin? at hspelled
    split at hspelled
    · rw [valueAs?, value?, hspelled]
      · rfl
      · intro inside' members heq
        cases heq
    · cases hspelled
  | _ => exact h

theorem outline?_of_valueAs? {levels : Nat} {s : Spelling} {json : Json}
    (hdepth : s.depth ≤ levels + 1) (h : s.valueAs? (.one .sheet) = some json) :
    s.outline? levels = some json := by
  cases s with
  | object inside members =>
    obtain ⟨spelled, hspelled, rfl⟩ := object_valueAs?_eq_some.mp h
    rw [depth, Nat.add_le_add_iff_right] at hdepth
    refine Option.map_eq_some_iff.mpr ⟨spelled, members_mono ?_ hspelled, rfl⟩
    intro member hmember name json hjson
    have hwithin := (depth_le_of_mem hmember).trans hdepth
    unfold memberAs? at hjson
    split at hjson
    · rw [memberWithin?, if_pos ‹_›, hjson]
    · rw [memberWithin?, if_neg ‹_›, within?, if_pos hwithin, hjson]
  | list inside items =>
    rw [depth, Nat.add_le_add_iff_right] at hdepth
    rw [outline?, itemsWithin?, if_pos hdepth]
    exact h
  | _ => exact h

end Json.Spelling

namespace Sheet

/-! ## Objects -/

theorem foldlM_mapM {α β σ : Type} (f : α → Option β) (g : σ → β → Option σ) (as : List α)
    (state : σ) :
    ((as.mapM f).bind fun bs => bs.foldlM g state) =
      as.foldlM (fun state a => (f a).bind (g state)) state := by
  induction as generalizing state with
  | nil => rfl
  | cons a as ih =>
    rw [List.mapM_cons, List.foldlM_cons]
    rcases f a with _ | b
    · rfl
    · change ((as.mapM f).bind fun bs => some (b :: bs)).bind _ =
        (g state b).bind fun state => as.foldlM _ state
      rw [Option.bind_assoc]
      simp only [Option.bind_some, List.foldlM_cons]
      cases g state b with
      | none => exact Option.bind_fun_none _
      | some state => exact ih state

theorem outlineMember_gives (levels : Nat) (draft : Draft) (name : String)
    (afterName before : Blanks) (s : Spelling) {rest : List Char} (hrest : Json.Stops rest) :
    ((member levels draft name).run
      (afterName.text ++ (':' :: (before.text ++ (s.text ++ rest))))).Gives
        ((Spelling.memberWithin? levels name s).bind fun json => draft.add? (name, json)) rest := by
  unfold Spelling.memberWithin?
  split
  · rename_i hname
    have hother := Spelling.ignores_iff.mp hname
    rw [Option.bind_some, add?_other draft hother .null]
    exact other_gives levels draft hother afterName before s hrest
  · rename_i hname
    have hfield := not_not.mp (mt Spelling.ignores_iff.mpr hname)
    exact field_gives levels draft hfield afterName before s hrest

theorem outlineMembers_give (levels : Nat) (first : Bool) (draft : Draft)
    (inner : List Spelling.Member) (rest : List Char) :
    (Json.members (member levels) first draft
      (Spelling.textOfMembers first inner ++ '}' :: rest)).Gives
        ((inner.mapM (Spelling.outlineMember? levels)).bind (List.foldlM Draft.add? draft))
        ('}' :: rest) := by
  rw [foldlM_mapM]
  induction inner generalizing first draft with
  | nil =>
    rw [Spelling.textOfMembers, List.nil_append, Json.members_eq, Json.nextName_brace]
    exact Outcome.gives_read _ _
  | cons m inner ih =>
    obtain ⟨before, letters, afterName, beforeValue, s, after⟩ := m
    have hstops := Json.stops_blanks after (Json.stops_members inner rest)
    have hmember : (Spelling.outlineMember? levels
        ⟨before, letters, afterName, beforeValue, s, after⟩).bind draft.add? =
          (Letter.string? letters).bind fun name =>
            (Spelling.memberWithin? levels name s).bind fun json => draft.add? (name, json) := by
      simp only [Spelling.outlineMember?, Option.bind_assoc, Option.bind_map]
      rfl
    rw [List.foldlM_cons, hmember, Option.bind_eq_bind, Option.bind_assoc]
    apply Json.members_spelled_gives
    intro name _
    apply (outlineMember_gives levels draft name afterName beforeValue s hstops).bind
    intro draft' _
    rw [Json.members_blanks]
    exact ih false draft'

/-! ## Lists -/

theorem draftOfList_gives_one (levels : Nat) (item : Spelling.Item) (rest : List Char) :
    (draftOfList levels (Spelling.textOfItems true [item] ++ ']' :: rest)).Gives
      (((item.value.within? levels).bind string?).map fun sourceName => ⟨some sourceName, none⟩)
      (']' :: rest) := by
  have hstops := Json.stops_blanks item.after (Json.stops_items [] rest)
  unfold draftOfList
  rw [Json.nextItem_spelled, Outcome.bind_read, if_pos rfl, Option.map_eq_bind]
  apply (string_gives levels item.value hstops).bind
  intro sourceName _
  rw [Json.nextItem_blanks, Spelling.textOfItems, List.nil_append, Json.nextItem_bracket]
  exact Outcome.gives_read _ _

theorem draftOfList_gives (levels : Nat) (item item' : Spelling.Item) (items : List Spelling.Item)
    (rest : List Char) :
    (draftOfList levels (Spelling.textOfItems true (item :: item' :: items) ++ ']' :: rest)).Gives
      (((item.value.within? levels).bind string?).bind fun sourceName =>
        ((item'.value.within? levels).bind nodes?).map fun nodes => ⟨some sourceName, some nodes⟩)
      (item'.after.text ++ (Spelling.textOfItems false items ++ ']' :: rest)) := by
  have hstops := Json.stops_blanks item.after (Json.stops_items (item' :: items) rest)
  have hstops' := Json.stops_blanks item'.after (Json.stops_items items rest)
  unfold draftOfList
  rw [Json.nextItem_spelled, Outcome.bind_read, if_pos rfl]
  apply (string_gives levels item.value hstops).bind
  intro sourceName _
  rw [Json.nextItem_blanks, Json.nextItem_spelled, Outcome.bind_read, if_pos rfl]
  exact (nodes_give levels item'.value hstops').map _

theorem reader_list_run (levels : Nat) (before inside : Blanks) (items : List Spelling.Item)
    (rest : List Char) :
    (reader (levels + 1)).run (before.text ++ ((Spelling.list inside items).text ++ rest)) =
      ((draftOfList levels (Spelling.textOfItems true items ++ ']' :: rest)).check
        (Draft.finish (.tooShort 1 recordName 2))).closedBy Json.closeList := by
  change Json.bracketed _ _ _ _ = _
  simp only [Json.bracketed_blanks, Spelling.text, List.cons_append, List.append_assoc,
    List.nil_append]
  rw [Json.bracketed, Json.skipBlank_cons rfl]
  simp only [onList, draftOfList, Json.nextItem_blanks]

theorem finish_gives {o : Outcome Draft} {draft? : Option Draft} {rest : List Char}
    (h : o.Gives draft? rest) (lack : Json.Mismatch) :
    (o.check (Draft.finish lack)).Gives
      (draft?.bind fun draft => (draft.finish lack).toOption) rest :=
  h.decoded (Json.read?_check _ _).symm

theorem closedBy_comma {α : Type} {o : Outcome α} {value? : Option α} (after : Blanks)
    {text : List Char} (h : o.Gives value? (after.text ++ ',' :: text)) (rest : List Char) :
    (o.closedBy Json.closeList).Gives none rest := by
  have hclose : (Json.closeList (after.text ++ ',' :: text)).rest? = none := by
    unfold Json.closeList
    rw [Json.skipBlank_blanks, Json.skipBlank_cons rfl]
    simp only
    split <;> rfl
  rw [Outcome.gives_iff] at h ⊢
  rw [Outcome.read?_closedBy, h]
  cases value? with
  | none => rfl
  | some value =>
    simp only [Option.map_some, Option.bind_some, hclose]
    rfl

theorem reader_list_none (levels : Nat) (before inside : Blanks) {items : List Spelling.Item}
    (h : items.length ≠ 2) (rest : List Char) :
    ((reader (levels + 1)).run (before.text ++ ((Spelling.list inside items).text ++ rest))).Gives
      none rest := by
  rw [reader_list_run]
  rcases items with _ | ⟨item, _ | ⟨item', _ | ⟨item'', items⟩⟩⟩
  · have hdraft : (draftOfList levels (Spelling.textOfItems true [] ++ ']' :: rest)).Gives
        (some {}) (']' :: rest) := by
      rw [draftOfList, Spelling.textOfItems, List.nil_append, Json.nextItem_bracket]
      exact Outcome.gives_read _ _
    exact (finish_gives hdraft _).closedBy (Json.closeList_bracket rest)
  · have hsheet := finish_gives (draftOfList_gives_one levels item rest) (.tooShort 1 recordName 2)
    rw [Option.bind_map] at hsheet
    have hnone := Option.bind_fun_none (β := Sheet) ((item.value.within? levels).bind string?)
    exact (hnone ▸ hsheet).closedBy (Json.closeList_bracket rest)
  · exact absurd rfl h
  · have hsheet := finish_gives (draftOfList_gives levels item item' (item'' :: items) rest)
      (.tooShort 1 recordName 2)
    obtain ⟨before, s, after⟩ := item''
    rw [Spelling.textOfItems] at hsheet
    exact closedBy_comma item'.after hsheet rest

theorem decode?_two (json json' : Json) :
    decode? (.list [json, json']) =
      (string? json).bind fun sourceName =>
        (nodes? json').map fun nodes => ⟨sourceName, nodes⟩ := by
  have hmembers : decode? (.list [json, json']) =
      ofMembers? [("sourceName", json), ("nodes", json')] := rfl
  rw [hmembers]
  simp only [ofMembers?, List.foldlM_cons, List.foldlM_nil, Draft.add?, fill?]
  cases string? json <;> cases nodes? json' <;> rfl

theorem decode?_list_none {items : List Json} (h : items.length ≠ 2) :
    decode? (.list items) = none := by
  unfold decode?
  split
  · rename_i heq
    cases heq
    exact absurd rfl h
  · rename_i heq
    cases heq
  · rfl

theorem decode?_itemsWithin?_two (levels : Nat) (item item' : Spelling.Item)
    (lack : Json.Mismatch) :
    ((Spelling.itemsWithin? levels [item, item']).bind fun items => decode? (.list items)) =
      (((item.value.within? levels).bind string?).bind fun sourceName =>
        ((item'.value.within? levels).bind nodes?).map fun nodes =>
          (⟨some sourceName, some nodes⟩ : Draft)).bind fun draft =>
            (draft.finish lack).toOption := by
  obtain ⟨before, s, after⟩ := item
  obtain ⟨before', s', after'⟩ := item'
  rw [Spelling.itemsWithin?_cons, Spelling.itemsWithin?_cons, Spelling.itemsWithin?_nil]
  -- The source name is read before the nodes are, which makes no difference to the sheet.
  rcases s.within? levels with _ | json
  · rfl
  · rcases s'.within? levels with _ | json'
    · simp only [Option.bind_some]
      cases string? json <;> rfl
    · simp only [Option.bind_some, Option.map_some, decode?_two]
      cases string? json <;> cases nodes? json' <;> rfl

theorem reader_list (levels : Nat) (before inside : Blanks) (items : List Spelling.Item)
    (rest : List Char) :
    ((reader (levels + 1)).run (before.text ++ ((Spelling.list inside items).text ++ rest))).Gives
      ((Spelling.itemsWithin? levels items).bind fun items => decode? (.list items)) rest := by
  by_cases h : items.length = 2
  · obtain ⟨item, item', rfl⟩ := List.length_eq_two.mp h
    have hclose : Json.closeList (item'.after.text ++
        (Spelling.textOfItems false [] ++ ']' :: rest)) = ⟨none, rest⟩ := by
      simp only [Json.closeList, Json.skipBlank_blanks, Spelling.textOfItems, List.nil_append,
        Json.skipBlank_cons (c := ']') rfl]
    have hsheet := (finish_gives (draftOfList_gives levels item item' [] rest)
      (.tooShort 1 recordName 2)).closedBy hclose
    rw [reader_list_run, decode?_itemsWithin?_two]
    exact hsheet
  · have hnone : ((Spelling.itemsWithin? levels items).bind fun items => decode? (.list items)) =
        none := by
      rw [Option.bind_eq_none_iff]
      intro values hvalues
      apply decode?_list_none
      unfold Spelling.itemsWithin? at hvalues
      split at hvalues
      · rw [Spelling.items?_eq] at hvalues
        rw [Json.length_of_mapM hvalues]
        exact h
      · cases hvalues
    rw [hnone]
    exact reader_list_none levels before inside h rest

/-! ## Whole texts -/

/-- A text is read as the sheet that its outline gives. -/
theorem reader_outline (levels : Nat) (before : Blanks) (s : Spelling) (rest : List Char) :
    ((reader (levels + 1)).run (before.text ++ (s.text ++ rest))).Gives
      ((s.outline? levels).bind decode?) rest := by
  cases s with
  | object inside members =>
    have hmembers := outlineMembers_give levels true {} members rest
    have hsheet := reader_object_blanks levels before inside members rest hmembers
    rw [Option.bind_assoc] at hsheet
    rw [Spelling.outline?, Option.bind_map]
    exact hsheet
  | list inside items =>
    rw [Spelling.outline?, Option.bind_map]
    exact reader_list levels before inside items rest
  | null => exact reader_scalar levels before rfl rest
  | bool b => exact reader_scalar levels before rfl rest
  | number n =>
    have hnone : (n.value?.map Json.number).bind decode? = none := by
      rw [Option.bind_map]
      exact Option.bind_fun_none _
    rw [Spelling.outline?, Spelling.value?, hnone]
    · exact reader_scalar levels before rfl rest
    · nofun
    · nofun
  | string letters =>
    have hnone : ((Letter.string? letters).map Json.string).bind decode? = none := by
      rw [Option.bind_map]
      exact Option.bind_fun_none _
    rw [Spelling.outline?, Spelling.value?, hnone]
    · exact reader_scalar levels before rfl rest
    · nofun
    · nofun

theorem parse_outline (before after : Blanks) (s : Spelling) :
    (parse (Spelling.document before s after)).toOption =
      (s.outline? 126).bind decode? := by
  apply parse_toOption_blanks after
  rw [Spelling.document, String.toList_ofList]
  exact reader_outline 126 before s after.text

theorem exists_of_parse {before after : Blanks} {s : Spelling} {sheet : Sheet}
    (h : parse (Spelling.document before s after) = .ok sheet) :
    ∃ json, s.valueAs? (.one .sheet) = some json ∧ decode? json = some sheet := by
  have hvalue := parse_outline before after s
  rw [h] at hvalue
  obtain ⟨json, hjson, hsheet⟩ := Option.bind_eq_some_iff.mp hvalue.symm
  exact ⟨json, Spelling.valueAs?_of_outline? hjson, hsheet⟩

theorem parse_of_valueAs? (before after : Blanks) {s : Spelling} {json : Json} {sheet : Sheet}
    (hdepth : s.depth ≤ 127) (hjson : s.valueAs? (.one .sheet) = some json)
    (hsheet : decode? json = some sheet) :
    parse (Spelling.document before s after) = .ok sheet := by
  apply Json.toOption_eq_some
  rw [parse_outline, Spelling.outline?_of_valueAs? hdepth hjson, Option.bind_some, hsheet]

end Sheet

end StyleScope
