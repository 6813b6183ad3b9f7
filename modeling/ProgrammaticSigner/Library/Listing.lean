import ProgrammaticSigner.Library.Outcome

set_option autoImplicit false

/- Reports built from what a search returned: entries merged under their keys, and the
items that are due listed in the order of their keys. -/
namespace Listing

section Distinct

variable {Key Entry : Type} [DecidableEq Key]

/-- Among distinct keys, whatever has the key is found by it. -/
theorem find?_eq_some_iff {key : Entry → Key} {entries : List Entry}
    (distinct : (entries.map key).Nodup) {wanted : Key} {entry : Entry} :
    (entries.find? fun entry => key entry = wanted) = some entry ↔
      entry ∈ entries ∧ key entry = wanted := by
  constructor
  · intro found
    exact ⟨List.mem_of_find?_eq_some found, by simpa using List.find?_some found⟩
  · intro listed
    induction entries with
    | nil => cases listed.1
    | cons first rest ih =>
        rw [List.map_cons, List.nodup_cons] at distinct
        rcases List.mem_cons.mp listed.1 with same | member
        · rw [List.find?_cons_of_pos (by simp [← same, listed.2]), same]
        · have other : key first ≠ wanted := by
            intro same
            exact distinct.1 (same ▸ listed.2 ▸ List.mem_map_of_mem member)
          rw [List.find?_cons_of_neg (by simp [other])]
          exact ih distinct.2 ⟨member, listed.2⟩

theorem filter_eq_find? {key : Entry → Key} {entries : List Entry}
    (distinct : (entries.map key).Nodup) (wanted : Key) :
    (entries.filter fun entry => key entry = wanted) =
      (entries.find? fun entry => key entry = wanted).toList := by
  induction entries with
  | nil => rfl
  | cons first rest ih =>
      rw [List.map_cons, List.nodup_cons] at distinct
      by_cases same : key first = wanted
      · have none : (rest.filter fun entry => key entry = wanted) = [] := by
          refine List.filter_eq_nil_iff.mpr fun entry member equal => distinct.1 ?_
          rw [same, ← of_decide_eq_true equal]
          exact List.mem_map_of_mem member
        rw [List.filter_cons_of_pos (by simp [same]), List.find?_cons_of_pos (by simp [same]), none]
        rfl
      · rw [List.filter_cons_of_neg (by simp [same]), List.find?_cons_of_neg (by simp [same])]
        exact ih distinct.2

end Distinct

section Merge

variable {Key Value Entry : Type} [Ord Key]

/-- `BTreeMap::entry` over a list: each entry updates what its key holds. -/
def merge (key : Entry → Key) (put : Option Value → Entry → Value)
    (map : Std.TreeMap Key Value) (entries : List Entry) : Std.TreeMap Key Value :=
  entries.foldl (fun map entry => map.alter (key entry) fun found => some (put found entry)) map

/-- A key holds what its own entries made of it, in their order. -/
theorem getElem?_merge [DecidableEq Key] [Std.TransOrd Key] [Std.LawfulEqOrd Key]
    (key : Entry → Key) (put : Option Value → Entry → Value) (map : Std.TreeMap Key Value)
    (entries : List Entry) (wanted : Key) :
    (merge key put map entries)[wanted]? =
      (entries.filter fun entry => key entry = wanted).foldl
        (fun found entry => some (put found entry)) map[wanted]? := by
  induction entries generalizing map with
  | nil => rfl
  | cons entry rest ih =>
      have step := ih (map.alter (key entry) fun found => some (put found entry))
      rw [merge, List.foldl_cons]
      refine step.trans ?_
      rw [Std.TreeMap.getElem?_alter]
      simp only [Std.LawfulEqCmp.compare_eq_iff_eq]
      by_cases same : key entry = wanted
      · simp [same]
      · simp [same]

/-- `entry(..).or_insert((value, vec![])).1.push(item)` -/
def push {Item Header : Type} (header : Entry → Header) (item : Item)
    (found : Option (Header × List Item)) (entry : Entry) : Header × List Item :=
  let held := found.getD (header entry, [])
  (held.1, held.2 ++ [item])

/-- Entries with distinct keys update each key at most once. -/
theorem getElem?_merge_distinct [DecidableEq Key] [Std.TransOrd Key] [Std.LawfulEqOrd Key]
    {key : Entry → Key} {put : Option Value → Entry → Value} {map : Std.TreeMap Key Value}
    {entries : List Entry} (distinct : (entries.map key).Nodup) (wanted : Key) :
    (merge key put map entries)[wanted]? =
      match entries.find? fun entry => key entry = wanted with
      | some entry => some (put map[wanted]? entry)
      | none => map[wanted]? := by
  rw [getElem?_merge, filter_eq_find? distinct]
  cases entries.find? fun entry => key entry = wanted <;> rfl

section Rounds

variable {Round Error : Type} {step : Std.TreeMap Key Value → Round →
  Except Error (Std.TreeMap Key Value)} {add : Round → Key → Option Value → Option Value}

/-- What each round adds at a key adds up over all of them. -/
theorem getElem?_foldlM
    (steps : ∀ map round next, step map round = .ok next →
      ∀ key, next[key]? = add round key map[key]?)
    {rounds : List Round} {map final : Std.TreeMap Key Value}
    (ran : rounds.foldlM step map = .ok final) (key : Key) :
    final[key]? = rounds.foldl (fun held round => add round key held) map[key]? := by
  induction rounds generalizing map with
  | nil =>
      obtain rfl := Except.ok.inj ran
      rfl
  | cons round rest ih =>
      rw [List.foldlM_cons] at ran
      obtain ⟨next, here, later⟩ := Outcome.bind_ok_iff.mp ran
      rw [ih later, steps map round next here key]
      rfl

theorem foldlM_exists (steps : ∀ map round, ∃ next, step map round = .ok next)
    (rounds : List Round) (map : Std.TreeMap Key Value) :
    ∃ final, rounds.foldlM step map = .ok final := by
  induction rounds generalizing map with
  | nil => exact ⟨map, rfl⟩
  | cons round rest ih =>
      obtain ⟨next, here⟩ := steps map round
      obtain ⟨final, later⟩ := ih next
      refine ⟨final, ?_⟩
      rw [List.foldlM_cons, Outcome.bind_of_ok here, later]

/-- Rounds that push under one header leave that header and what they pushed. -/
theorem foldl_push {Item Header : Type} (header : Header) (item : Round → Item)
    (finds : Round → Bool) (rounds : List Round) :
    rounds.foldl (fun held round =>
        if finds round then some (push (fun _ : Unit => header) (item round) held ()) else held)
        none =
      if rounds.filter finds = [] then none
      else some (header, (rounds.filter finds).map item) := by
  have started (items : List Item) (rounds : List Round) :
      rounds.foldl (fun held round =>
          if finds round then some (push (fun _ : Unit => header) (item round) held ()) else held)
          (some (header, items)) =
        some (header, items ++ (rounds.filter finds).map item) := by
    induction rounds generalizing items with
    | nil => simp
    | cons round rest ih =>
        by_cases found : finds round = true
        · rw [List.foldl_cons, if_pos found, List.filter_cons_of_pos found]
          refine (ih (items ++ [item round])).trans ?_
          rw [List.append_assoc, List.map_cons, List.singleton_append]
        · rw [List.foldl_cons, if_neg found, List.filter_cons_of_neg found]
          exact ih items
  induction rounds with
  | nil => rfl
  | cons round rest ih =>
      by_cases found : finds round = true
      · rw [List.foldl_cons, if_pos found, List.filter_cons_of_pos found,
          if_neg (List.cons_ne_nil _ _)]
        exact started [item round] rest
      · rw [List.foldl_cons, if_neg found, List.filter_cons_of_neg found]
        exact ih

end Rounds

end Merge

section Lists

variable {Index Item : Type} [LT Index]

/-- The items due are listed, each once, in the order of their indexes. -/
def Lists (due : Index → Prop) (describes : Index → Item → Prop) (items : List Item) : Prop :=
  ∃ indexes : List Index, indexes.Pairwise (· < ·) ∧ (∀ index, index ∈ indexes ↔ due index) ∧
    List.Forall₂ describes indexes items

/-- Walking entries in the order of their keys and keeping what they yield lists just that. -/
theorem lists_filterMap {Entry : Type} {key : Entry → Index} {entries : List Entry}
    (sorted : (entries.map key).Pairwise (· < ·)) (choose : Entry → Option Item) :
    Lists (fun index => ∃ entry ∈ entries, key entry = index ∧ (choose entry).isSome = true)
      (fun index item => ∃ entry ∈ entries, key entry = index ∧ choose entry = some item)
      (entries.filterMap choose) := by
  refine ⟨(entries.filter fun entry => (choose entry).isSome).map key,
    sorted.sublist (List.filter_sublist.map key), fun index => ?_, ?_⟩
  · simp only [List.mem_map, List.mem_filter]
    constructor
    · intro member
      obtain ⟨entry, kept, same⟩ := member
      exact ⟨entry, kept.1, same, kept.2⟩
    · intro due
      obtain ⟨entry, listed, same, chosen⟩ := due
      exact ⟨entry, ⟨listed, chosen⟩, same⟩
  · rw [List.forall₂_map_left_iff]
    clear sorted
    induction entries with
    | nil => exact List.Forall₂.nil
    | cons entry rest ih =>
        have later : List.Forall₂
            (fun kept item => ∃ other ∈ entry :: rest, key other = key kept ∧
              choose other = some item)
            (rest.filter fun entry => (choose entry).isSome) (rest.filterMap choose) := by
          refine ih.imp fun kept item described => ?_
          obtain ⟨other, listed, found⟩ := described
          exact ⟨other, List.mem_cons_of_mem _ listed, found⟩
        cases chosen : choose entry with
        | none =>
            rw [List.filter_cons_of_neg (by simp [chosen]), List.filterMap_cons_none chosen]
            exact later
        | some item =>
            rw [List.filter_cons_of_pos (by simp [chosen]), List.filterMap_cons_some chosen]
            exact .cons ⟨entry, List.mem_cons_self, rfl, chosen⟩ later

theorem Lists.imp {due due' : Index → Prop} {describes describes' : Index → Item → Prop}
    {items : List Item} (lists : Lists due describes items) (same : ∀ index, due index ↔ due' index)
    (further : ∀ index item, due index → describes index item → describes' index item) :
    Lists due' describes' items := by
  obtain ⟨indexes, sorted, members, described⟩ := lists
  refine ⟨indexes, sorted, fun index => (members index).trans (same index), ?_⟩
  refine List.forall₂_iff_get.mpr ⟨described.length_eq, fun position left right => ?_⟩
  exact further _ _ ((members _).mp (List.get_mem _ _))
    ((List.forall₂_iff_get.mp described).2 position left right)

/-- Whatever is listed is due. -/
theorem Lists.of_mem {due : Index → Prop} {describes : Index → Item → Prop} {items : List Item}
    (lists : Lists due describes items) {item : Item} (listed : item ∈ items) :
    ∃ index, due index ∧ describes index item := by
  obtain ⟨indexes, -, members, described⟩ := lists
  obtain ⟨position, inside, rfl⟩ := List.getElem_of_mem listed
  have below : position < indexes.length := described.length_eq ▸ inside
  exact ⟨indexes[position], (members _).mp (List.getElem_mem below),
    (List.forall₂_iff_get.mp described).2 position below inside⟩

/-- Whatever is due is listed. -/
theorem Lists.exists_of_due {due : Index → Prop} {describes : Index → Item → Prop}
    {items : List Item} (lists : Lists due describes items) {index : Index} (here : due index) :
    ∃ item ∈ items, describes index item := by
  obtain ⟨indexes, -, members, described⟩ := lists
  obtain ⟨position, inside, rfl⟩ := List.getElem_of_mem ((members index).mpr here)
  have below : position < items.length := described.length_eq ▸ inside
  exact ⟨items[position], List.getElem_mem below,
    (List.forall₂_iff_get.mp described).2 position inside below⟩

end Lists

section Reports

variable {Index Item : Type}

/-- The items due are reported, each once, in whatever order they came. -/
def Reports (due : Index → Prop) (describes : Index → Item → Prop) (items : List Item) : Prop :=
  ∃ indexes : List Index, indexes.Nodup ∧ (∀ index, index ∈ indexes ↔ due index) ∧
    List.Forall₂ describes indexes items

/-- Entries with distinct keys report themselves. -/
theorem reports_of_forall₂ {Entry : Type} {key : Entry → Index} {entries : List Entry}
    {describes : Entry → Item → Prop} {items : List Item}
    (distinct : (entries.map key).Nodup) (described : List.Forall₂ describes entries items) :
    Reports (fun index => ∃ entry ∈ entries, key entry = index)
      (fun index item => ∃ entry ∈ entries, key entry = index ∧ describes entry item) items := by
  refine ⟨entries.map key, distinct, fun index => List.mem_map, ?_⟩
  rw [List.forall₂_map_left_iff]
  refine List.forall₂_iff_get.mpr ⟨described.length_eq, fun position left right => ?_⟩
  exact ⟨_, List.get_mem _ _, rfl, (List.forall₂_iff_get.mp described).2 position left right⟩

theorem reports_map {Entry : Type} {key : Entry → Index} {entries : List Entry}
    (distinct : (entries.map key).Nodup) (item : Entry → Item) :
    Reports (fun index => ∃ entry ∈ entries, key entry = index)
      (fun index listed => ∃ entry ∈ entries, key entry = index ∧ listed = item entry)
      (entries.map item) :=
  reports_of_forall₂ distinct
    (List.forall₂_map_right_iff.mpr (List.forall₂_same.mpr fun _ _ => rfl))

theorem Reports.imp {due due' : Index → Prop} {describes describes' : Index → Item → Prop}
    {items : List Item} (reports : Reports due describes items)
    (same : ∀ index, due index ↔ due' index)
    (further : ∀ index item, due index → describes index item → describes' index item) :
    Reports due' describes' items := by
  obtain ⟨indexes, distinct, members, described⟩ := reports
  refine ⟨indexes, distinct, fun index => (members index).trans (same index), ?_⟩
  refine List.forall₂_iff_get.mpr ⟨described.length_eq, fun position left right => ?_⟩
  exact further _ _ ((members _).mp (List.get_mem _ _))
    ((List.forall₂_iff_get.mp described).2 position left right)

/-- The reports of groups that have nothing due in common make one report. -/
theorem reports_flatten {Group : Type} {groups : List Group} {lists : List (List Item)}
    {due : Group → Index → Prop} {describes : Group → Index → Item → Prop}
    (each : List.Forall₂ (fun group items => Reports (due group) (describes group) items)
      groups lists)
    (apart : groups.Pairwise fun first second => ∀ index, due first index → ¬due second index) :
    Reports (fun index => ∃ group ∈ groups, due group index)
      (fun index item => ∃ group ∈ groups, due group index ∧ describes group index item)
      lists.flatten := by
  induction each with
  | nil => exact ⟨[], List.nodup_nil, by simp, .nil⟩
  | @cons group items groups lists here _ ih =>
      obtain ⟨others, apart⟩ := List.pairwise_cons.mp apart
      have owing : Reports (due group)
          (fun index item => due group index ∧ describes group index item) items :=
        here.imp (fun _ => Iff.rfl) fun _ _ owed described => ⟨owed, described⟩
      obtain ⟨first, distinct, members, described⟩ := owing
      obtain ⟨later, distinct', members', described'⟩ := ih apart
      refine ⟨first ++ later, ?_, fun index => ?_, ?_⟩
      · refine List.nodup_append.mpr ⟨distinct, distinct', fun index early other late same => ?_⟩
        subst same
        obtain ⟨group', among, owed⟩ := (members' index).mp late
        exact others group' among index ((members index).mp early) owed
      · simp only [List.mem_append, members, members', List.exists_mem_cons_iff]
      · refine List.rel_append (described.imp fun index item owed => ?_)
          (described'.imp fun index item owed => ?_)
        · exact ⟨group, List.mem_cons_self, owed⟩
        · obtain ⟨group', among, owed⟩ := owed
          exact ⟨group', List.mem_cons_of_mem _ among, owed⟩

end Reports

/-- A map's entries are listed by its keys. -/
theorem lists_toList {Key Value Item : Type} [LinearOrder Key] (map : Std.TreeMap Key Value)
    (item : Key × Value → Item) :
    Lists (fun key => ∃ value, map[key]? = some value)
      (fun key listed => ∃ value, map[key]? = some value ∧ listed = item (key, value))
      (map.toList.map item) := by
  have sorted : (map.toList.map Prod.fst).Pairwise (· < ·) := by
    rw [List.pairwise_map]
    exact Std.TreeMap.ordered_keys_toList.imp fun less => compare_lt_iff_lt.mp less
  have member (key : Key) (value : Value) : (key, value) ∈ map.toList ↔ map[key]? = some value :=
    Std.TreeMap.mem_toList_iff_getElem?_eq_some
  have lists := lists_filterMap sorted fun entry => some (item entry)
  rw [List.filterMap_eq_map'] at lists
  refine lists.imp (fun key => ?_) fun key listed _ described => ?_
  · constructor
    · intro due
      obtain ⟨entry, among, rfl, -⟩ := due
      exact ⟨entry.2, (member entry.1 entry.2).mp among⟩
    · intro due
      obtain ⟨value, held⟩ := due
      exact ⟨(key, value), (member key value).mpr held, rfl, rfl⟩
  · obtain ⟨entry, among, rfl, same⟩ := described
    exact ⟨entry.2, (member entry.1 entry.2).mp among, (Option.some.inj same).symm⟩

end Listing
