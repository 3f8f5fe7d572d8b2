import AgentWire.Dictionary

namespace AgentWire.Dictionary

/-!
# What a dictionary holds

A name reads back the value that was put under it last, and entries whose names
are in order already are the dictionary that they make.
-/

variable {α : Type}

/-- What is entered under a name is found there. -/
theorem get?_insert_self
    (name : String)
    (value : α)
    (entries : Dictionary α) :
    get? (insert name value entries) name = some value := by
  induction entries with
  | nil =>
      simp [insert, get?]
  | cons entry rest inductionHypothesis =>
      obtain ⟨first, old⟩ := entry
      unfold insert
      split
      · simp [get?]
      · split
        · simp [get?]
        · rename_i different
          have skipped : (name == first) = false := by
            simpa using different
          simpa [get?, List.lookup_cons, skipped] using inductionHypothesis

/-- Entering something under one name leaves the others alone. -/
theorem get?_insert_of_ne
    {name other : String}
    (different : other ≠ name)
    (value : α)
    (entries : Dictionary α) :
    get? (insert name value entries) other = get? entries other := by
  have skipped : (other == name) = false := by
    simpa using different
  induction entries with
  | nil =>
      simp [insert, get?, List.lookup_cons, skipped]
  | cons entry rest inductionHypothesis =>
      obtain ⟨first, old⟩ := entry
      unfold insert
      split
      · simp [get?, List.lookup_cons, skipped]
      · split
        · rename_i same
          subst same
          simp [get?, List.lookup_cons, skipped]
        · simp only [get?, List.lookup_cons] at inductionHypothesis ⊢
          rw [inductionHypothesis]

/-- Nothing is found under a name that was erased. -/
theorem get?_erase_self
    (entries : Dictionary α)
    (name : String) :
    get? (erase entries name) name = none := by
  induction entries with
  | nil =>
      rfl
  | cons entry rest inductionHypothesis =>
      obtain ⟨first, old⟩ := entry
      by_cases same : first = name
      · simpa [erase, same] using inductionHypothesis
      · have skipped : (name == first) = false := by
          simpa using Ne.symm same
        simpa [erase, get?, same, List.lookup_cons, skipped] using
          inductionHypothesis

/-- Erasing one name leaves the others alone. -/
theorem get?_erase_of_ne
    {name other : String}
    (different : other ≠ name)
    (entries : Dictionary α) :
    get? (erase entries name) other = get? entries other := by
  induction entries with
  | nil =>
      rfl
  | cons entry rest inductionHypothesis =>
      obtain ⟨first, old⟩ := entry
      by_cases same : first = name
      · subst first
        have skipped : (other == name) = false := by
          simpa using different
        simpa [erase, get?, List.lookup_cons, skipped] using
          inductionHypothesis
      · simp only [erase, get?] at inductionHypothesis
        simp [erase, get?, same, List.lookup_cons, inductionHypothesis]

/-- Names in order are each before all later ones. -/
theorem pairwise_of_sortedNames
    {names : List String}
    (sorted : sortedNames names = true) :
    names.Pairwise (· < ·) := by
  induction names with
  | nil =>
      exact .nil
  | cons first rest inductionHypothesis =>
      cases rest with
      | nil =>
          exact List.pairwise_singleton _ first
      | cons second rest =>
          simp only [sortedNames, Bool.and_eq_true, decide_eq_true_eq] at sorted
          have later := inductionHypothesis sorted.2
          refine .cons ?_ later
          intro name member
          rcases List.mem_cons.mp member with rfl | member
          · exact sorted.1
          · exact String.lt_trans sorted.1 (List.rel_of_pairwise_cons later member)

/-- Names that grow are all different. -/
theorem nodup_of_pairwise
    {names : List String}
    (sorted : names.Pairwise (· < ·)) :
    names.Nodup := by
  refine sorted.imp ?_
  rintro first second before rfl
  exact String.lt_irrefl first before

/-- A name behind all others is put at the end. -/
theorem insert_of_lt
    {name : String}
    {value : α}
    {entries : Dictionary α}
    (behind : ∀ entry ∈ entries, entry.1 < name) :
    insert name value entries = entries ++ [(name, value)] := by
  induction entries with
  | nil =>
      rfl
  | cons entry rest inductionHypothesis =>
      obtain ⟨first, old⟩ := entry
      have before : first < name :=
        behind (first, old) (by simp)
      have different : name ≠ first := by
        rintro rfl
        exact String.lt_irrefl _ before
      have placed := inductionHypothesis fun entry member =>
        behind entry (by simp [member])
      rw [insert, if_neg (String.lt_asymm before), if_neg different, placed]
      rfl

/-- Entries in order that are put behind others in order stay as they are. -/
private theorem foldl_insert
    {done entries : List (String × α)}
    (sorted : ((done ++ entries).map (·.1)).Pairwise (· < ·)) :
    entries.foldl (fun sorted (name, value) => insert name value sorted) done =
      done ++ entries := by
  induction entries generalizing done with
  | nil =>
      simp
  | cons entry rest inductionHypothesis =>
      obtain ⟨name, value⟩ := entry
      have behind : ∀ entry ∈ done, entry.1 < name := by
        intro entry member
        rw [List.map_append, List.pairwise_append] at sorted
        exact sorted.2.2 entry.1 (List.mem_map_of_mem member) name (by simp)
      have further : ((done ++ [(name, value)] ++ rest).map (·.1)).Pairwise (· < ·) := by
        simpa using sorted
      simp only [List.foldl_cons, insert_of_lt behind]
      rw [inductionHypothesis further]
      simp

/-- Entries in order are the dictionary that they make. -/
theorem ofEntries_of_sorted
    {entries : List (String × α)}
    (sorted : sortedNames (entries.map (·.1)) = true) :
    ofEntries entries = entries :=
  foldl_insert (pairwise_of_sortedNames sorted)

theorem sortedNames_of_pairwise
    {names : List String}
    (sorted : names.Pairwise (· < ·)) :
    sortedNames names = true := by
  induction sorted with
  | nil => rfl
  | @cons first rest before _ inductionHypothesis =>
      cases rest with
      | nil => rfl
      | cons second rest =>
          rw [sortedNames, inductionHypothesis, Bool.and_true, decide_eq_true_eq]
          exact before second List.mem_cons_self

/-- An entry is the one that was put in or was there before. -/
theorem mem_of_mem_insert
    {name : String}
    {value : α}
    {entries : Dictionary α}
    {entry : String × α}
    (member : entry ∈ insert name value entries) :
    entry = (name, value) ∨ entry ∈ entries := by
  induction entries with
  | nil => simpa [insert] using member
  | cons first rest inductionHypothesis =>
      obtain ⟨other, old⟩ := first
      unfold insert at member
      split at member
      · simpa using member
      · split at member
        · rcases List.mem_cons.mp member with same | later
          · exact .inl same
          · exact .inr (List.mem_cons_of_mem _ later)
        · rcases List.mem_cons.mp member with same | later
          · exact .inr (same ▸ List.mem_cons_self)
          · exact (inductionHypothesis later).imp_right (List.mem_cons_of_mem _)

/-- Names stay in order when a value is put at its place. -/
theorem pairwise_insert
    {entries : Dictionary α}
    (sorted : (entries.map (·.1)).Pairwise (· < ·))
    (name : String)
    (value : α) :
    ((insert name value entries).map (·.1)).Pairwise (· < ·) := by
  induction entries with
  | nil => simp [insert]
  | cons first rest inductionHypothesis =>
      obtain ⟨other, old⟩ := first
      obtain ⟨before, later⟩ := List.pairwise_cons.mp sorted
      unfold insert
      split
      · next earlier =>
          refine List.pairwise_cons.mpr ⟨?_, sorted⟩
          intro entry member
          rcases List.mem_cons.mp member with rfl | member
          · exact earlier
          · exact String.lt_trans earlier (before entry member)
      · next notEarlier =>
          split
          · next same =>
              subst same
              exact sorted
          · next different =>
              -- The order is total: a name that is neither earlier nor the same comes later.
              have behind : other < name := by
                refine Decidable.byContradiction fun notBehind => different ?_
                exact String.le_antisymm (String.not_lt.mp notBehind)
                  (String.not_lt.mp notEarlier)
              refine List.pairwise_cons.mpr ⟨?_, inductionHypothesis later⟩
              intro entry member
              obtain ⟨pair, inserted, rfl⟩ := List.mem_map.mp member
              rcases mem_of_mem_insert inserted with rfl | kept
              · exact behind
              · exact before pair.1 (List.mem_map_of_mem kept)

/-- Putting entries into a dictionary in order keeps it in order and adds nothing else. -/
private theorem foldl_keeps
    {entries done : List (String × α)}
    (sorted : (done.map (·.1)).Pairwise (· < ·)) :
    let all := entries.foldl (fun sorted (name, value) => insert name value sorted) done
    (all.map (·.1)).Pairwise (· < ·) ∧ ∀ entry ∈ all, entry ∈ done ∨ entry ∈ entries := by
  induction entries generalizing done with
  | nil => exact ⟨sorted, fun entry member => .inl member⟩
  | cons entry rest inductionHypothesis =>
      obtain ⟨name, value⟩ := entry
      obtain ⟨inOrder, known⟩ := inductionHypothesis (pairwise_insert sorted name value)
      refine ⟨inOrder, ?_⟩
      intro entry member
      rcases known entry member with placed | later
      · rcases mem_of_mem_insert placed with rfl | before
        · exact .inr List.mem_cons_self
        · exact .inl before
      · exact .inr (List.mem_cons_of_mem _ later)

theorem sortedNames_ofEntries (entries : List (String × α)) :
    sortedNames ((ofEntries entries).map (·.1)) = true :=
  sortedNames_of_pairwise (foldl_keeps .nil).1

/-- A dictionary holds nothing but the entries that it was made of. -/
theorem mem_of_mem_ofEntries
    {entries : List (String × α)}
    {entry : String × α}
    (member : entry ∈ ofEntries entries) :
    entry ∈ entries := by
  rcases (foldl_keeps .nil).2 entry member with none | given
  · cases none
  · exact given

theorem nodup_ofEntries (entries : List (String × α)) :
    ((ofEntries entries).map (·.1)).Nodup :=
  nodup_of_pairwise (pairwise_of_sortedNames (sortedNames_ofEntries entries))

/-- A name that does not occur has no value. -/
theorem get?_eq_none
    {entries : Dictionary α}
    {name : String}
    (absent : name ∉ entries.map (·.1)) :
    get? entries name = none := by
  rw [get?, List.lookup_eq_none_iff]
  intro entry member
  rw [bne_iff_ne]
  rintro rfl
  exact absent (List.mem_map_of_mem member)

/-- Entries under different names are found behind what was entered before them. -/
private theorem get?_foldl
    {entries : List (String × α)}
    (different : (entries.map (·.1)).Nodup)
    (done : Dictionary α)
    (name : String) :
    get? (entries.foldl (fun sorted (name, value) => insert name value sorted) done) name =
      (entries.lookup name).or (get? done name) := by
  induction entries generalizing done with
  | nil => rfl
  | cons entry rest inductionHypothesis =>
      obtain ⟨first, value⟩ := entry
      obtain ⟨single, different⟩ := List.nodup_cons.mp different
      rw [List.foldl_cons, inductionHypothesis different]
      by_cases same : name = first
      · subst same
        have gone : rest.lookup name = none := get?_eq_none single
        rw [gone, get?_insert_self]
        simp
      · have skipped : (name == first) = false := by simpa using same
        rw [get?_insert_of_ne same]
        simp [List.lookup_cons, skipped]

/-- Entries with different names keep their values in the dictionary that they make. -/
theorem get?_ofEntries
    {entries : List (String × α)}
    (different : (entries.map (·.1)).Nodup)
    (name : String) :
    get? (ofEntries entries) name = entries.lookup name :=
  (get?_foldl different [] name).trans (Option.or_none)

/-- Names with values that are not kept have no value any more. -/
theorem get?_filter
    {entries : Dictionary α}
    (different : (entries.map (·.1)).Nodup)
    (keep : α → Bool)
    (name : String) :
    get? (entries.filter fun entry => keep entry.2) name = (get? entries name).filter keep := by
  induction entries with
  | nil => rfl
  | cons entry rest inductionHypothesis =>
      obtain ⟨first, value⟩ := entry
      obtain ⟨single, different⟩ := List.nodup_cons.mp different
      have later := inductionHypothesis different
      simp only [get?] at later ⊢
      by_cases same : name = first
      · subst same
        rw [show rest.lookup name = none from get?_eq_none single] at later
        cases kept : keep value with
        | true => simp [kept, Option.filter]
        | false => simpa [kept, Option.filter] using later
      · have skipped : (name == first) = false := by simpa using same
        cases kept : keep value with
        | true => simpa [List.lookup_cons, kept, skipped] using later
        | false => simpa [List.lookup_cons, kept, skipped] using later

end AgentWire.Dictionary
