import AgentWire.Proofs.Chat.Response
import AgentWire.Proofs.Json.Document
import Mathlib.Data.List.Chain

namespace AgentWire.Chat

/-!
# How a response groups what it is told

The items of a list of updates have one form in which no texts are left to join, and a
response holds them in it.  Its messages belong to consecutive groups of the updates that
say something, so nothing is lost, moved or told under another role or id.  Since only the
joined form is kept, it does not matter how the items were cut into updates and texts.
-/

/-- Put an item before others; a text is joined to a text behind it. -/
def joinFront : ContentItem → List ContentItem → List ContentItem
  | .text before, .text more :: rest => .text (before ++ more) :: rest
  | item, items => item :: items

/-- The items with every run of texts joined to one text. -/
def joined (items : List ContentItem) : List ContentItem :=
  items.foldr joinFront []

/-- No two texts stand next to each other. -/
def Separate (items : List ContentItem) : Prop :=
  items.IsChain fun former latter => former.text? = none ∨ latter.text? = none

section Joining

variable
  {items more others : List ContentItem}
  {item : ContentItem}

@[simp] theorem joined_cons : joined (item :: items) = joinFront item (joined items) :=
  rfl

theorem joined_append : joined (items ++ more) = items.foldr joinFront (joined more) :=
  List.foldr_append

theorem joined_append_congr
    (same : joined more = joined others) :
    joined (items ++ more) = joined (items ++ others) := by
  rw [joined_append, same, ← joined_append]

/-- It does not matter which of three texts in a row are joined first. -/
theorem joinFront_joinFront (before words : String) (items : List ContentItem) :
    joinFront (.text before) (joinFront (.text words) items) =
      joinFront (.text (before ++ words)) items := by
  rcases items with - | ⟨_ | _ | _ | _ | _, rest⟩ <;>
    simp [joinFront, String.append_assoc]

theorem joinFront_ne_nil : joinFront item items ≠ [] := by
  unfold joinFront
  split <;>
    simp

theorem joined_eq_nil : joined items = [] ↔ items = [] := by
  cases items with
  | nil =>
      simp [joined]
  | cons item rest =>
      simp [joinFront_ne_nil]

/-- Appending an item first does not change what is joined in the end. -/
theorem joined_appendItem_append (items : List ContentItem) (item : ContentItem) :
    joined (appendItem items item ++ more) = joined (items ++ item :: more) := by
  unfold appendItem
  split
  · next before words last =>
    obtain ⟨earlier, rfl⟩ := List.getLast?_eq_some_iff.mp last
    rw [List.dropLast_concat, List.append_assoc, List.append_assoc]
    exact joined_append_congr (joinFront_joinFront before words (joined more)).symm
  · rw [List.append_assoc, List.singleton_append]

/-- Appending items one after the other joins as appending them at once. -/
theorem joined_appendItems (items more : List ContentItem) :
    joined (appendItems items more) = joined (items ++ more) := by
  induction more generalizing items with
  | nil =>
      rw [appendItems, List.foldl_nil, List.append_nil]
  | cons item rest inductionHypothesis =>
      exact (inductionHypothesis (appendItem items item)).trans
        (joined_appendItem_append items item)

/-- Appending joins a text to one in front of it, so no two texts come to stand together. -/
theorem Separate.appendItem (separate : Separate items) : Separate (appendItem items item) := by
  rcases List.eq_nil_or_concat items with rfl | ⟨earlier, last, rfl⟩
  · cases item <;>
      exact .singleton _
  · -- Only a text behind a text is joined, and the joined text stands where the last one stood.
    cases last <;> cases item <;>
      simpa [Separate, Chat.appendItem, ContentItem.text?, List.isChain_append] using separate

theorem Separate.appendItems (separate : Separate items) : Separate (appendItems items more) := by
  induction more generalizing items with
  | nil =>
      exact separate
  | cons item rest inductionHypothesis =>
      exact inductionHypothesis separate.appendItem

/-- Where no texts meet there is nothing to join. -/
theorem Separate.joined_eq (separate : Separate items) : joined items = items := by
  induction items with
  | nil =>
      rfl
  | cons item rest inductionHypothesis =>
      rw [joined_cons, inductionHypothesis separate.tail]
      rcases rest with - | ⟨next, rest⟩
      · cases item <;>
          rfl
      · have apart := (List.isChain_cons_cons.mp separate).1
        cases item <;> cases next <;> first
          | rfl
          | simp [ContentItem.text?] at apart

/-- Items are added to separate ones by joining all of them. -/
theorem Separate.appendItems_eq (separate : Separate items) :
    Chat.appendItems items more = joined (items ++ more) := by
  rw [← separate.appendItems.joined_eq, joined_appendItems]

theorem appendItems_nil : appendItems [] items = joined items :=
  Separate.appendItems_eq .nil

/-- No two texts stand together where all were joined. -/
theorem separate_joined : Separate (joined items) := by
  rw [← appendItems_nil]
  exact Separate.appendItems .nil

theorem appendItems_append :
    appendItems items (more ++ others) = appendItems (appendItems items more) others :=
  List.foldl_append

/-- A message that was joined and grows is joined from all of its items. -/
theorem appendItems_joined : appendItems (joined items) more = joined (items ++ more) := by
  rw [← appendItems_nil, ← appendItems_append, appendItems_nil]

theorem joined_joined_append : joined (joined items ++ more) = joined (items ++ more) := by
  rw [← separate_joined.appendItems_eq, appendItems_joined]

end Joining

/-! ## Groups of updates -/

/-- A message holds what a group of updates told, under their role and the id of the first. -/
structure Gathers (group : List Update) (message : ChatMessage) : Prop where
  contents : message.contents = joined (group.flatMap (·.contents))
  role : ∀ update ∈ group, update.role = message.role
  id : ∀ update ∈ group, update.messageId = none ∨ update.messageId = message.messageId
  first : ∃ update rest, group = update :: rest ∧ update.messageId = message.messageId

/-- The updates that say something. -/
def saying (updates : List Update) : List Update :=
  updates.filter (!·.contents.isEmpty)

section Groups

variable
  {group : List Update}
  {groups : List (List Update)}
  {message : ChatMessage}
  {messages : List ChatMessage}
  {update : Update}
  {updates : List Update}

theorem saying_concat_of_empty
    (empty : update.contents = []) :
    saying (updates ++ [update]) = saying updates := by
  simp [saying, empty]

theorem saying_concat_of_some
    (some : update.contents ≠ []) :
    saying (updates ++ [update]) = saying updates ++ [update] := by
  simp [saying, some]

theorem saying_contents :
    (saying updates).flatMap (·.contents) = updates.flatMap (·.contents) :=
  flatMap_filter_of_vanishes fun update _ empty => by simpa using empty

/-- A message that an update begins gathers this update. -/
theorem gathers_start (update : Update) : Gathers [update] update.start where
  contents := by simpa [Update.start] using appendItems_nil
  role := by simp [Update.start]
  id := by simp [Update.start]
  first := ⟨update, [], rfl, rfl⟩

/-- A message gathers an update that goes on with it. -/
theorem Gathers.continued
    (gathers : Gathers group message)
    (continues : update.continues message = true) :
    Gathers (group ++ [update])
      { message with contents := appendItems message.contents update.contents } where
  contents := by
    rw [gathers.contents, appendItems_joined]
    simp
  role := by
    simpa [forall_and, or_imp] using ⟨gathers.role, (continues_iff.mp continues).1.symm⟩
  id := by
    have addressed := (continues_iff.mp continues).2.imp_right Eq.symm
    simpa [forall_and, or_imp] using ⟨gathers.id, addressed⟩
  first := by
    obtain ⟨first, rest, rfl, named⟩ := gathers.first
    exact ⟨first, rest ++ [update], rfl, named⟩

/-- A group that says nothing is no group of a response. -/
theorem Gathers.contents_ne_nil
    (gathers : Gathers group message)
    (telling : ∀ update ∈ group, update.contents ≠ []) :
    message.contents ≠ [] := by
  obtain ⟨first, rest, rfl, -⟩ := gathers.first
  rw [gathers.contents, ne_eq, joined_eq_nil]
  simp [telling first List.mem_cons_self]

/-- Messages that gather groups hold what the groups told, up to texts that are joined. -/
theorem joined_of_gathers
    (gathers : List.Forall₂ Gathers groups messages) :
    joined (messages.flatMap (·.contents)) = joined (groups.flatten.flatMap (·.contents)) := by
  induction gathers with
  | nil =>
      rfl
  | cons gathers _ inductionHypothesis =>
      rw [List.flatMap_cons, List.flatten_cons, List.flatMap_append, gathers.contents,
        joined_joined_append]
      exact joined_append_congr inductionHypothesis

/-- The last message gathers the last group. -/
theorem exists_last_group
    {last : ChatMessage}
    (gathers : List.Forall₂ Gathers groups (messages ++ [last])) :
    ∃ before group,
      groups = before ++ [group] ∧
        List.Forall₂ Gathers before messages ∧
        Gathers group last := by
  have before := List.forall₂_take_append groups messages [last] gathers
  have behind := List.forall₂_drop_append groups messages [last] gathers
  obtain ⟨group, none, belongs, ends, dropped⟩ := List.forall₂_cons_right_iff.mp behind
  obtain rfl := List.forall₂_nil_right_iff.mp ends
  refine ⟨groups.take messages.length, group, ?_, before, belongs⟩
  rw [← dropped, List.take_append_drop]

/-- An update joins the last group or begins one, as it joins the last message or begins one. -/
theorem groups_of_addContents
    (gathers : List.Forall₂ Gathers groups messages)
    (all : groups.flatten = saying updates) :
    ∃ groups,
      groups.flatten = saying (updates ++ [update]) ∧
        List.Forall₂ Gathers groups (addContents messages update) := by
  rcases addContents_cases messages update with
    ⟨empty, same⟩ | ⟨some, earlier, last, rfl, continues, continued⟩ | ⟨some, -, started⟩
  · rw [same, saying_concat_of_empty empty]
    exact ⟨groups, all, gathers⟩
  · -- The last group grows with the last message.
    obtain ⟨before, group, rfl, gathered, belongs⟩ := exists_last_group gathers
    refine ⟨before ++ [group ++ [update]], ?_, ?_⟩
    · rw [saying_concat_of_some some, ← all]
      simp
    · rw [continued]
      exact List.rel_append gathered (.cons (belongs.continued continues) .nil)
  · refine ⟨groups ++ [[update]], ?_, ?_⟩
    · rw [saying_concat_of_some some, ← all]
      simp
    · rw [started]
      exact List.rel_append gathers (.cons (gathers_start update) .nil)

/-- The messages of a response belong to consecutive groups of the updates that say something. -/
theorem groups_of_ofUpdates (updates : List Update) :
    ∃ groups,
      groups.flatten = saying updates ∧
        List.Forall₂ Gathers groups (Response.ofUpdates updates).messages := by
  induction updates using List.reverseRecOn with
  | nil =>
      exact ⟨[], rfl, .nil⟩
  | append_singleton updates update inductionHypothesis =>
      obtain ⟨groups, all, gathers⟩ := inductionHypothesis
      rw [messages_concat]
      exact groups_of_addContents gathers all

end Groups

/-! ## Cutting updates and texts -/

/-- An update with other contents. -/
def Update.carrying (update : Update) (items : List ContentItem) : Update :=
  { update with contents := items }

/-- Updates with the metadata of one that share its contents out in order. -/
structure Update.SharedOut (update : Update) (parts : List Update) : Prop where
  contents : parts.flatMap (·.contents) = update.contents
  metadata : ∀ part ∈ parts, part = update.carrying part.contents

section Cutting

variable
  {front back : List ContentItem}
  {update : Update}
  {parts : List Update}
  {messages : List ChatMessage}
  {response : Response}

/-- A text in pieces is added like the whole text. -/
theorem appendItem_appendItem (items : List ContentItem) (before words : String) :
    appendItem (appendItem items (.text before)) (.text words) =
      appendItem items (.text (before ++ words)) := by
  rcases List.eq_nil_or_concat items with rfl | ⟨earlier, last, rfl⟩
  · rfl
  · cases last <;>
      simp [appendItem, String.append_assoc]

/-- The pieces of a text come together as the whole text. -/
theorem appendItems_cuts
    (items : List ContentItem)
    (first : String)
    (cuts : List String) :
    appendItems items ((first :: cuts).map .text) =
      appendItem items (.text (String.join (first :: cuts))) := by
  induction cuts generalizing items first with
  | nil =>
      simp [appendItems]
  | cons second rest inductionHypothesis =>
      have rejoined := inductionHypothesis items (first ++ second)
      simp only [appendItems, List.map_cons, List.foldl_cons, String.join_cons,
        ← String.append_assoc, appendItem_appendItem] at rejoined ⊢
      exact rejoined

@[simp] theorem carrying_contents {items : List ContentItem} :
    (update.carrying items).contents = items :=
  rfl

@[simp] theorem carrying_start {items : List ContentItem} :
    (update.carrying items).start =
      { role := update.role, contents := joined items, messageId := update.messageId } := by
  rw [← appendItems_nil]
  rfl

@[simp] theorem carrying_continues {items : List ContentItem} {message : ChatMessage} :
    (update.carrying items).continues message = update.continues message :=
  rfl

/-- Two updates in a row with the same metadata are added like one with what both have. -/
theorem addContents_addContents
    (messages : List ChatMessage)
    (update : Update)
    (front back : List ContentItem) :
    addContents (addContents messages (update.carrying front)) (update.carrying back) =
      addContents messages (update.carrying (front ++ back)) := by
  -- Silent halves aside, the second update goes on with what the first one grew or started.
  rcases eq_or_ne front [] with rfl | someFront
  · simp [addContents]
  rcases eq_or_ne back [] with rfl | someBack
  · simp [addContents]
  have startedOn {items : List ContentItem} :
      update.continues ⟨update.role, items, update.messageId, none⟩ = true := by
    simp [Update.continues]
  have grownOn (last : ChatMessage) {items : List ContentItem} :
      update.continues { last with contents := items } = update.continues last :=
    rfl
  rcases List.eq_nil_or_concat messages with rfl | ⟨earlier, last, rfl⟩
  · simp [addContents, someFront, someBack, startedOn, appendItems_joined]
  · cases continues : update.continues last <;>
      simp [addContents, someFront, someBack, startedOn, grownOn, appendItems_append,
        appendItems_joined, continues]

/-- Two updates that carry the two parts of some items do what one with all of them does. -/
theorem add_add
    (response : Response)
    (update : Update)
    (front back : List ContentItem) :
    (response.add (update.carrying front)).add (update.carrying back) =
      response.add (update.carrying (front ++ back)) := by
  rw [Response.add, Response.add, Response.add, addContents_addContents]
  simp only [Update.carrying, Response.mk.injEq, true_and]
  refine ⟨?_, ?_, ?_⟩
  · rw [← Option.or_assoc, Option.or_self]
  · rw [← Option.or_assoc, Option.or_self]
  · rw [Option.or_assoc, Option.or_self]

/-- Any number of parts of an update do what the update does that carries all their items. -/
theorem foldl_add_carrying
    (response : Response)
    (front : List ContentItem)
    (metadata : ∀ part ∈ parts, part = update.carrying part.contents) :
    parts.foldl Response.add (response.add (update.carrying front)) =
      response.add (update.carrying (front ++ parts.flatMap (·.contents))) := by
  induction parts generalizing front with
  | nil =>
      simp
  | cons part rest inductionHypothesis =>
      obtain ⟨first, others⟩ := List.forall_mem_cons.mp metadata
      rw [List.foldl_cons, first, add_add, inductionHypothesis _ others]
      simp

/-- An update whose contents are shared out is added part by part. -/
theorem foldl_add_of_sharedOut
    (response : Response)
    (some : update.contents ≠ [])
    (shared : update.SharedOut parts) :
    parts.foldl Response.add response = response.add update := by
  cases parts with
  | nil =>
      exact absurd shared.contents.symm some
  | cons part rest =>
      obtain ⟨first, others⟩ := List.forall_mem_cons.mp shared.metadata
      rw [List.foldl_cons, first, foldl_add_carrying response part.contents others,
        ← List.flatMap_cons, shared.contents]
      rfl

/-- An update counts by whether it says something and by what its items are added as. -/
theorem add_carrying_congr
    (response : Response)
    (update : Update)
    (empty : front.isEmpty = back.isEmpty)
    (same : ∀ items, appendItems items front = appendItems items back) :
    response.add (update.carrying front) = response.add (update.carrying back) := by
  have sameStart : (update.carrying front).start = (update.carrying back).start := by
    rw [Update.start, Update.start, carrying_contents, carrying_contents, same]
    rfl
  rw [Response.add, Response.add, addContents, addContents]
  simp only [carrying_contents, carrying_continues, empty, same, sameStart]
  rfl

/-- A text of an update may come in pieces. -/
theorem add_cut
    (response : Response)
    {words : String}
    {cuts : List String}
    (contents : update.contents = front ++ .text words :: back)
    (some : cuts ≠ [])
    (rejoined : String.join cuts = words) :
    response.add (update.carrying (front ++ cuts.map .text ++ back)) = response.add update := by
  obtain ⟨first, rest, rfl⟩ := List.exists_cons_of_ne_nil some
  have empty :
      (front ++ (first :: rest).map ContentItem.text ++ back).isEmpty =
        update.contents.isEmpty := by
    rw [Bool.eq_iff_iff]
    simp [contents]
  refine add_carrying_congr response update empty fun items => ?_
  rw [contents, appendItems_append, appendItems_append, appendItems_cuts, rejoined,
    appendItems_append]
  rfl

end Cutting

/-! ## Metadata -/

/-- A field that every update with a value overwrites has the last value that is present. -/
theorem kept_ofUpdates
    {β : Type}
    {field : Update → Option β}
    {kept : Response → Option β}
    (absent : kept {} = none)
    (overwritten :
      ∀ response update, kept (response.add update) = (field update).or (kept response))
    (updates : List Update) :
    kept (Response.ofUpdates updates) = (updates.filterMap field).getLast? := by
  induction updates using List.reverseRecOn with
  | nil =>
      exact absent
  | append_singleton updates update inductionHypothesis =>
      rw [ofUpdates_append, List.foldl_cons, List.foldl_nil, overwritten, inductionHypothesis,
        List.filterMap_append, List.getLast?_append, List.filterMap_cons]
      cases field update <;>
        rfl

/-- A response has the time of the first update that has one. -/
theorem createdAt_ofUpdates (updates : List Update) :
    (Response.ofUpdates updates).createdAt = (updates.filterMap (·.createdAt)).head? := by
  induction updates using List.reverseRecOn with
  | nil =>
      rfl
  | append_singleton updates update inductionHypothesis =>
      rw [ofUpdates_append, List.filterMap_append, List.head?_append, ← inductionHypothesis,
        List.filterMap_cons, List.foldl_cons, List.foldl_nil, Response.add]
      cases update.createdAt <;>
        rfl

/--
A response holds what its updates told, cleared of texts that meet, in messages that each
belong to a group of updates in a row.  How items and texts are cut changes nothing in it.
-/
theorem ofUpdates_gathers (updates : List Update) :
    joined ((Response.ofUpdates updates).messages.flatMap (·.contents)) =
        joined (updates.flatMap (·.contents)) ∧
      (∀ message ∈ (Response.ofUpdates updates).messages,
        message.contents ≠ [] ∧ Separate message.contents) ∧
      (∃ groups,
        groups.flatten = saying updates ∧
          List.Forall₂ Gathers groups (Response.ofUpdates updates).messages) ∧
      (Response.ofUpdates updates).responseId = (updates.filterMap (·.responseId)).getLast? ∧
      (Response.ofUpdates updates).conversationId =
        (updates.filterMap (·.conversationId)).getLast? ∧
      (Response.ofUpdates updates).createdAt = (updates.filterMap (·.createdAt)).head? ∧
      (∀ before update after parts,
        updates = before ++ update :: after →
          update.contents ≠ [] →
          update.SharedOut parts →
          Response.ofUpdates (before ++ parts ++ after) = Response.ofUpdates updates) ∧
      ∀ before update after front words back cuts,
        updates = before ++ update :: after →
          update.contents = front ++ .text words :: back →
          cuts ≠ [] →
          String.join cuts = words →
          Response.ofUpdates
              (before ++ update.carrying (front ++ cuts.map .text ++ back) :: after) =
            Response.ofUpdates updates := by
  obtain ⟨groups, all, gathers⟩ := groups_of_ofUpdates updates
  refine ⟨?sameItems, ?wellFormed, ⟨groups, all, gathers⟩,
    kept_ofUpdates rfl (fun _ _ => rfl) updates, kept_ofUpdates rfl (fun _ _ => rfl) updates,
    createdAt_ofUpdates updates, ?sharedOut, ?cut⟩
  case sameItems =>
    rw [joined_of_gathers gathers, all, saying_contents]
  case wellFormed =>
    intro message member
    obtain ⟨group, among, gathered⟩ := Json.exists_left_of_forall₂ gathers message member
    have telling : ∀ update ∈ group, update.contents ≠ [] := by
      intro update inside
      have told : update ∈ saying updates := all ▸ List.mem_flatten_of_mem among inside
      simpa [saying] using (List.mem_filter.mp told).2
    exact ⟨gathered.contents_ne_nil telling, gathered.contents ▸ separate_joined⟩
  case sharedOut =>
    rintro before update after parts rfl some shared
    rw [List.append_assoc, ofUpdates_append, ofUpdates_append, List.foldl_append,
      foldl_add_of_sharedOut _ some shared, List.foldl_cons]
  case cut =>
    rintro before update after front words back cuts rfl contents some rejoined
    rw [ofUpdates_append, ofUpdates_append, List.foldl_cons, List.foldl_cons,
      add_cut _ contents some rejoined]

end AgentWire.Chat
