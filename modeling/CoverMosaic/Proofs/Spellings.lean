import CoverMosaic.Proofs.Records
import Mathlib.Data.List.Nodup
import Mathlib.Logic.Relation
/-!
# Spellings of an entry: `EntityRecord` from JSON

An entry is written as one object, but it may come as others: with its fields in another order,
with fields of names that its kind does not have, and without columns that are null or list no
artists. It may also come as an array, which has the tag and then every column in its place.

An object is edited step by step, and no edit changes what is found under the names of the entry
(`Carries.edit`): one value for each, or none where the column may be left out. So every spelling
is read as the entry (`Spells.ofJson?_eq`), and as long as no name comes twice there are no other
objects that are (`spells_of_ofJson?`). An object that lacks its tag or a column that may not be
left out is no spelling of any entry, and neither is an array with an item more or less.

Main result `spellings_agree`.
-/
namespace CoverMosaic

/-! ## Parts of an object -/

namespace Json

/-- The fields of some names. -/
def among (names : List String) (fields : List (String × Json)) : List (String × Json) :=
  fields.filter fun field => field.1 ∈ names

/-- The fields of other names. -/
def without (names : List String) (fields : List (String × Json)) : List (String × Json) :=
  fields.filter fun field => field.1 ∉ names

section
variable {name : String} {names : List String} {field : String × Json}
  {fields : List (String × Json)}

theorem mem_without : field ∈ without names fields ↔ field ∈ fields ∧ field.1 ∉ names := by
  simp [without]

theorem field?_without_of_mem (h : name ∈ names) : field? name (without names fields) = none := by
  have hname : name ∉ (without names fields).map Prod.fst := by
    intro hmem
    obtain ⟨field, hfield, rfl⟩ := List.mem_map.1 hmem
    exact (mem_without.1 hfield).2 h
  rw [field?_eq_getLast?, values_eq_nil hname]
  rfl

theorem field?_without_of_not_mem (h : name ∉ names) :
    field? name (without names fields) = field? name fields := by
  have hvalues : values name (without names fields) = values name fields := by
    simp only [values, without, List.filter_filter]
    congr 1
    apply List.filter_congr
    intro field _
    by_cases hname : field.1 = name
    · simp [hname, h]
    · simp [hname]
  rw [field?_eq_getLast?, field?_eq_getLast?, hvalues]

theorem without_append_among_perm (names : List String) (fields : List (String × Json)) :
    (without names fields ++ among names fields).Perm fields := by
  have hperm := List.filter_append_perm (fun field => decide (field.1 ∈ names)) fields
  simp only [← decide_not] at hperm
  exact List.perm_append_comm.trans hperm

end

/-- Two objects have the same fields under the names that they share, if they never have two values
there. -/
theorem among_perm {fields fields' : List (String × Json)} (hnd : (fields.map Prod.fst).Nodup)
    (hnd' : (fields'.map Prod.fst).Nodup)
    (hsame : ∀ field ∈ fields, ∀ field' ∈ fields', field.1 = field'.1 → field = field') :
    (among (fields'.map Prod.fst) fields).Perm (among (fields.map Prod.fst) fields') := by
  have hfirst := (List.Nodup.of_map _ hnd).filter fun field => decide (field.1 ∈ fields'.map Prod.fst)
  have hsecond := (List.Nodup.of_map _ hnd').filter fun field => decide (field.1 ∈ fields.map Prod.fst)
  rw [among, among, List.perm_ext_iff_of_nodup hfirst hsecond]
  intro field
  simp only [List.mem_filter, decide_eq_true_eq]
  constructor
  · rintro ⟨hfield, hname⟩
    obtain ⟨field', hfield', heq⟩ := List.mem_map.1 hname
    obtain rfl := hsame field hfield field' hfield' heq.symm
    exact ⟨hfield', List.mem_map_of_mem hfield⟩
  · rintro ⟨hfield', hname⟩
    obtain ⟨other, hother, heq⟩ := List.mem_map.1 hname
    obtain rfl := hsame other hother field hfield' heq
    exact ⟨hother, List.mem_map_of_mem hfield'⟩

end Json

namespace Entry

variable {e e' : Entry} {name : String} {field : String × Json}
  {fields fields' : List (String × Json)}

/-- The columns that have neither null nor a value of their own where they are left out. -/
def required : Entry → List String
  | artist _ => ["artist_name", "listen_count"]
  | release _ => ["release_name", "artist_name", "listen_count"]
  | recording _ => ["track_name", "artist_name", "listen_count"]

/-- The tag tells which columns there are, and which of them are required. -/
theorem kind_of_tag (h : e.tag = e'.tag) :
    e.required = e'.required ∧ e.fields.length = e'.fields.length := by
  cases e with
  | artist r => cases e' <;> simp [tag] at h; exact ⟨rfl, rfl⟩
  | release r => cases e' <;> simp [tag] at h; exact ⟨rfl, rfl⟩
  | recording r => cases e' <;> simp [tag] at h; exact ⟨rfl, rfl⟩

/-- An entry has a value in each required column, whatever it is. -/
theorem exists_of_mem_required (h : name ∈ e.required) :
    ∃ field ∈ e.fields, field.1 = name ∧ ¬ Json.Omissible field := by
  revert name
  cases e <;>
    simp [required, fields, RankedArtist.fields, RankedRelease.fields, RankedRecording.fields,
      Json.Omissible, Json.ofWord]

/-! ## Edits of an object -/

/-- A change to the fields of an object that leaves the entry as it is. -/
inductive Edit (e : Entry) : List (String × Json) → List (String × Json) → Prop where
  /-- The fields come in another order. -/
  | reorder {fields fields' : List (String × Json)} (h : fields'.Perm fields) : Edit e fields fields'
  /-- There is one more field, of a name that the entry does not have. -/
  | add {fields : List (String × Json)} {field : String × Json}
    (h : field.1 ∉ e.written.map Prod.fst) : Edit e fields (field :: fields)
  /-- A column is left out. -/
  | drop {fields : List (String × Json)} {field : String × Json} (h : field ∈ e.fields)
    (homissible : Json.Omissible field) : Edit e (field :: fields) fields

/-- The fields are those of the JSON form after any number of edits. -/
def Spells (e : Entry) (fields : List (String × Json)) : Prop :=
  Relation.ReflTransGen e.Edit e.written fields

/-- Under each name of the entry the object has its value once, or nothing where it may be left
out. -/
def Carries (e : Entry) (fields : List (String × Json)) : Prop :=
  ∀ field ∈ e.written, Json.values field.1 fields = [field.2] ∨
    Json.Omissible field ∧ Json.values field.1 fields = []

theorem carries_written (e : Entry) : e.Carries e.written := by
  intro field hfield
  exact .inl (Json.values_of_mem e.names_nodup hfield)

theorem Carries.edit (h : e.Carries fields) (hedit : e.Edit fields fields') :
    e.Carries fields' := by
  intro field hfield
  cases hedit with
  | reorder hperm =>
    have hvalues : (Json.values field.1 fields').Perm (Json.values field.1 fields) :=
      (hperm.filter _).map _
    rcases h field hfield with hone | ⟨homissible, hnone⟩
    · rw [hone, List.perm_singleton] at hvalues
      exact .inl hvalues
    · rw [hnone, List.perm_nil] at hvalues
      exact .inr ⟨homissible, hvalues⟩
  | @add _ other hother =>
    have hne : other.1 ≠ field.1 := by
      intro heq
      exact hother (heq ▸ List.mem_map_of_mem hfield)
    rw [Json.values_cons_ne hne]
    exact h field hfield
  | @drop _ other _ homissible =>
    have hbefore := h field hfield
    by_cases hname : other.1 = field.1
    · -- the one value under this name was that of the column that is left out
      rw [← hname, Json.values_cons_self] at hbefore
      rcases hbefore with hone | ⟨_, hnone⟩
      · obtain ⟨hvalue, hrest⟩ := List.cons.inj hone
        obtain rfl : other = field := Prod.ext hname hvalue
        exact .inr ⟨homissible, hrest⟩
      · cases hnone
    · rwa [Json.values_cons_ne hname] at hbefore

theorem Spells.carries (h : e.Spells fields) : e.Carries fields := by
  induction h with
  | refl => exact e.carries_written
  | tail _ hedit ih => exact ih.edit hedit

theorem Carries.stands (h : e.Carries fields) (hfield : field ∈ e.written) :
    Json.Stands field (Json.field? field.1 fields) := by
  rw [Json.field?_eq_getLast?]
  rcases h field hfield with hone | ⟨homissible, hnone⟩
  · rw [hone]
    exact .inl rfl
  · rw [hnone]
    exact .inr ⟨homissible, rfl⟩

theorem Spells.ofJson?_eq (h : e.Spells fields) : ofJson? (.obj fields) = some e :=
  ofJson?_obj_eq_some_iff.2 fun _ hfield => h.carries.stands hfield

/-! ## The objects that are read -/

theorem Spells.append (h : e.Spells fields) {others : List (String × Json)}
    (hothers : ∀ field ∈ others, field.1 ∉ e.written.map Prod.fst) :
    e.Spells (others ++ fields) := by
  induction others with
  | nil => exact h
  | cons other others ih =>
    obtain ⟨hother, hothers⟩ := List.forall_mem_cons.1 hothers
    exact (ih hothers).tail (.add hother)

theorem Spells.of_append {dropped : List (String × Json)} (h : e.Spells (dropped ++ fields))
    (hdropped : ∀ field ∈ dropped, field ∈ e.fields ∧ Json.Omissible field) :
    e.Spells fields := by
  induction dropped with
  | nil => exact h
  | cons field dropped ih =>
    obtain ⟨⟨hfield, homissible⟩, hdropped⟩ := List.forall_mem_cons.1 hdropped
    exact ih (h.tail (.drop hfield homissible)) hdropped

theorem spells_of_ofJson? (hnd : (fields.map Prod.fst).Nodup)
    (h : ofJson? (.obj fields) = some e) : e.Spells fields := by
  have hstands := ofJson?_obj_eq_some_iff.1 h
  have hdropped : ∀ own ∈ Json.without (fields.map Prod.fst) e.written,
      own ∈ e.fields ∧ Json.Omissible own := by
    intro own hmem
    obtain ⟨hown, hlacks⟩ := Json.mem_without.1 hmem
    have hvalue := hstands own hown
    rw [Json.field?_eq_getLast?, Json.values_eq_nil hlacks] at hvalue
    rcases hvalue with hvalue | ⟨homissible, -⟩
    · cases hvalue
    · rcases List.mem_cons.1 hown with rfl | hcolumn
      · cases stands_tag_iff.1 (.inr ⟨homissible, rfl⟩)
      · exact ⟨hcolumn, homissible⟩
  have hkept : (Json.among (e.written.map Prod.fst) fields).Perm
      (Json.among (fields.map Prod.fst) e.written) := by
    apply Json.among_perm hnd e.names_nodup
    intro field hfield own hown hname
    have hvalue := hstands own hown
    rw [← hname, Json.field?_of_mem hnd hfield, Json.stands_some_iff] at hvalue
    exact Prod.ext hname hvalue
  -- first the columns are dropped that the object lacks, then the fields come in that it has more
  have hwritten : e.Spells (Json.without (fields.map Prod.fst) e.written ++
      Json.among (fields.map Prod.fst) e.written) :=
    .single (.reorder (Json.without_append_among_perm _ _))
  have hown : e.Spells (Json.among (e.written.map Prod.fst) fields) :=
    (hwritten.of_append hdropped).tail (.reorder hkept)
  have hall : e.Spells (Json.without (e.written.map Prod.fst) fields ++
      Json.among (e.written.map Prod.fst) fields) :=
    hown.append fun field hfield => (Json.mem_without.1 hfield).2
  exact hall.tail (.reorder (Json.without_append_among_perm _ _).symm)

/-! ## Refused objects and arrays -/

theorem ofJson?_without (h : ofJson? (.obj fields) = some e) (hname : name ∈ tagField :: e.required) :
    ofJson? (.obj (Json.without [name] fields)) = none := by
  rw [Option.eq_none_iff_forall_ne_some]
  intro e' h'
  have hstands := ofJson?_obj_eq_some_iff.1 h
  have hstands' := ofJson?_obj_eq_some_iff.1 h'
  have htag := stands_tag_iff.1 (hstands _ List.mem_cons_self)
  have htag' := stands_tag_iff.1 (hstands' _ List.mem_cons_self)
  by_cases hlacks : tagField = name
  · rw [Json.field?_without_of_mem (by simp [hlacks])] at htag'
    cases htag'
  · -- both have the same tag, so that the column is required in the other entry too
    rw [Json.field?_without_of_not_mem (by simp [hlacks]), htag] at htag'
    have hkind := kind_of_tag (Json.str.inj (Option.some.inj htag'))
    rcases List.mem_cons.1 hname with heq | hname
    · exact hlacks heq.symm
    · rw [hkind.1] at hname
      obtain ⟨field, hfield, rfl, hneeded⟩ := exists_of_mem_required hname
      have hvalue := hstands' field (List.mem_cons_of_mem _ hfield)
      rw [Json.field?_without_of_mem List.mem_cons_self,
        Json.stands_iff_of_not_omissible hneeded] at hvalue
      cases hvalue

theorem ofJson?_arr_of_length {js : List Json} (h : js.length ≠ e.fields.length) :
    ofJson? (.arr (.str e.tag :: js)) = none := by
  rw [Option.eq_none_iff_forall_ne_some]
  intro e' h'
  obtain ⟨htag, rfl⟩ := List.cons.inj (ofJson?_arr_eq_some_iff.1 h')
  rw [(kind_of_tag (Json.str.inj htag)).2, List.length_map] at h
  exact h rfl

/-- **All spellings of an entry are read as this entry.** These are the array of its tag and its
columns and the object of its fields after any number of edits. No other array is read as the
entry, and no other object in which no name comes twice. An object that then lacks its tag or a
required column is not read at all, and neither is an array with an item more or less. -/
theorem spellings_agree (e : Entry) :
    ofJson? (.arr e.items) = some e ∧
    (∀ fields, e.Spells fields → ofJson? (.obj fields) = some e ∧
      ∀ name ∈ tagField :: e.required, ofJson? (.obj (Json.without [name] fields)) = none) ∧
    (ofJson? (.arr e.items.dropLast) = none ∧
      ∀ item, ofJson? (.arr (e.items ++ [item])) = none) ∧
    (∀ js, ofJson? (.arr js) = some e → js = e.items) ∧
    ∀ fields, (fields.map Prod.fst).Nodup → ofJson? (.obj fields) = some e → e.Spells fields := by
  refine ⟨ofJson?_arr_eq_some_iff.2 rfl, fun fields h => ⟨h.ofJson?_eq, fun name hname => ?_⟩,
    ⟨?_, fun item => ?_⟩, fun js => ofJson?_arr_eq_some_iff.1, fun fields => spells_of_ofJson?⟩
  · exact ofJson?_without h.ofJson?_eq hname
  · have hne : e.fields ≠ [] := by cases e <;> exact List.cons_ne_nil _ _
    have hpos := List.length_pos_iff.2 hne
    rw [items, List.dropLast_cons_of_ne_nil (by simpa using hne)]
    apply ofJson?_arr_of_length
    rw [List.length_dropLast, List.length_map]
    omega
  · rw [items, List.cons_append]
    apply ofJson?_arr_of_length
    simp

/-- A release that nobody matched, without the two columns that it may go without, with its fields
in reverse and with a column of another kind. -/
theorem spellings_agree_release :
    let e : Entry := .release ⟨none, "N", "A", [], 7⟩
    let j : List (String × Json) := [("listen_count", .int 7), ("artist_name", .str "A"),
      ("release_name", .str "N"), ("entity", .str "release"), ("track_name", .null)]
    e.Spells j ∧ ofJson? (.obj j) = some e ∧
    "artist_name" ∈ tagField :: e.required ∧
    ofJson? (.obj (Json.without ["artist_name"] j)) = none ∧
    ofJson? (.arr [.str "release", .null, .str "N", .str "A", .arr [], .int 7]) = some e ∧
    ofJson? (.arr [.str "release", .null, .str "N", .str "A", .int 7]) ≠ some e ∧
    e.Spells (("artist_mbids", .arr []) :: j) := by
  intro e j
  let kept : List (String × Json) := [("entity", .str "release"), ("release_name", .str "N"),
    ("artist_name", .str "A"), ("listen_count", .int 7)]
  have hwhole : e.Spells ([("release_mbid", .null), ("artist_mbids", .arr [])] ++ kept) :=
    .single (.reorder (Json.without_append_among_perm (kept.map Prod.fst) e.written))
  have hkept : e.Spells kept := by
    apply hwhole.of_append
    intro field hfield
    simp only [List.mem_cons, List.not_mem_nil, or_false] at hfield
    rcases hfield with rfl | rfl
    · exact ⟨.head _, .inl rfl⟩
    · refine ⟨?_, .inr rfl⟩
      simp [e, Entry.fields, RankedRelease.fields, Json.ofStrings]
  have hmore : e.Spells (("track_name", .null) :: kept) := hkept.tail (.add (by decide))
  have hj : e.Spells j := hmore.tail (.reorder (List.reverse_perm (("track_name", Json.null) :: kept)))
  obtain ⟨harray, hobject, -, honly, hspelled⟩ := spellings_agree e
  have hname : "artist_name" ∈ tagField :: e.required := by decide
  refine ⟨hj, (hobject j hj).1, hname, (hobject j hj).2 _ hname, harray, fun h => ?_, ?_⟩
  · exact absurd (congrArg List.length (honly _ h)) (by decide)
  · exact hspelled _ (by decide) rfl

end Entry

end CoverMosaic
