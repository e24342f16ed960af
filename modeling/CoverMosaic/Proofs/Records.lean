import CoverMosaic.Listening.RankingJson
import CoverMosaic.Proofs.Traversal
/-!
# What records are read from: `StatsPage`, `EntityRecord` and `ArtworkInfo`

A record is read column by column. What is found of a column is its written value, or nothing where
an object may go without it (`Stands`), and each reader of a column accepts just that. So a record
of a kind is read from the values of its columns and from nothing else
(`ofJson?_eq_some_iff`), and an entry from an object or an array that has its tag besides
(`ofJson?_obj_eq_some_iff`, `ofJson?_arr_eq_some_iff`).

The look-up of a field goes through all values of its name (`field?_eq_getLast?`). Where no name
comes twice that is the value of the one field (`field?_of_mem`), in whatever order the fields
stand. So the written form of a record reads back with its fields in any order.

Main result `written_reads_back`.
-/
namespace CoverMosaic

namespace Json

/-! ## Fields of a name -/

/-- The values of all fields of a name, in their order. -/
def values (name : String) (fields : List (String × Json)) : List Json :=
  (fields.filter fun field => field.1 = name).map Prod.snd

section
variable {name : String} {field : String × Json} {fields : List (String × Json)}

theorem mem_values {value : Json} : value ∈ values name fields ↔ (name, value) ∈ fields := by
  simp [values]

theorem values_cons_self (field : String × Json) (fields : List (String × Json)) :
    values field.1 (field :: fields) = field.2 :: values field.1 fields := by
  simp [values]

theorem values_cons_ne (h : field.1 ≠ name) : values name (field :: fields) = values name fields := by
  simp [values, h]

theorem values_eq_nil (h : name ∉ fields.map Prod.fst) : values name fields = [] := by
  rw [List.eq_nil_iff_forall_not_mem]
  intro value hvalue
  exact h (List.mem_map_of_mem (mem_values.1 hvalue))

theorem values_of_mem (hnd : (fields.map Prod.fst).Nodup) (hmem : field ∈ fields) :
    values field.1 fields = [field.2] := by
  induction fields with
  | nil => cases hmem
  | cons other fields ih =>
    obtain ⟨hother, hfields⟩ := List.nodup_cons.1 hnd
    rcases List.mem_cons.1 hmem with rfl | hmem
    · rw [values_cons_self, values_eq_nil hother]
    · have hne : other.1 ≠ field.1 := by
        intro h
        exact hother (h ▸ List.mem_map_of_mem hmem)
      rw [values_cons_ne hne, ih hfields hmem]

theorem field?_eq_getLast? : field? name fields = (values name fields).getLast? := by
  induction fields with
  | nil => rfl
  | cons field fields ih =>
    obtain ⟨key, value⟩ := field
    rw [field?, ih]
    by_cases h : key = name
    · subst h
      rw [values_cons_self (key, value), List.getLast?_cons]
      cases (values key fields).getLast? <;> simp
    · have hrest : values name ((key, value) :: fields) = values name fields := values_cons_ne h
      rw [hrest]
      cases (values name fields).getLast? <;> simp [h]

theorem field?_of_mem (hnd : (fields.map Prod.fst).Nodup) (hmem : field ∈ fields) :
    field? field.1 fields = some field.2 := by
  rw [field?_eq_getLast?, values_of_mem hnd hmem]
  rfl

end

/-! ## Columns that are left out -/

/-- An object may go without the field: its value is null, or it lists no artists. -/
def Omissible (field : String × Json) : Prop :=
  field.2 = null ∨ field = ("artist_mbids", arr [])

/-- What is found of a field: its value, or nothing where an object may go without it. -/
def Stands (field : String × Json) (column : Option Json) : Prop :=
  column = some field.2 ∨ Omissible field ∧ column = none

theorem stands_some_iff {field : String × Json} {j : Json} :
    Stands field (some j) ↔ j = field.2 := by
  simp [Stands]

theorem stands_iff_of_not_omissible {field : String × Json} {column : Option Json}
    (h : ¬ Omissible field) : Stands field column ↔ column = some field.2 := by
  simp [Stands, h]

section
variable {name : String} {column : Option Json}

theorem string?_eq_some_iff {s : String} : string? column = some s ↔ column = some (str s) := by
  constructor
  · intro h
    unfold string? at h
    split at h
    · rw [Option.some.inj h]
    · cases h
  · rintro rfl
    exact string?_str s

theorem word?_eq_some_iff {n : UInt64} : word? column = some n ↔ column = some (ofWord n) := by
  constructor
  · intro h
    unfold word? at h
    split at h
    · rename_i k
      split at h
      · rename_i hk
        rw [← Option.some.inj h, ofWord, UInt64.toNat_ofNat_of_lt' hk.2, Int.toNat_of_nonneg hk.1]
      · cases h
    · cases h
  · rintro rfl
    exact word?_ofWord n

theorem strings?_eq_some_iff {ss : List String} :
    strings? column = some ss ↔ column = some (ofStrings ss) := by
  constructor
  · intro h
    unfold strings? at h
    split at h
    · rename_i items
      have hitems := mapM_eq_some_iff.1 h
      simp only [string?_eq_some_iff, Option.some.injEq, forall₂_eq_map_iff] at hitems
      rw [ofStrings, hitems]
    · cases h
  · rintro rfl
    exact strings?_ofStrings ss

theorem stands_string_iff {s : String} : Stands (name, str s) column ↔ string? column = some s := by
  rw [stands_iff_of_not_omissible (by simp [Omissible]), string?_eq_some_iff]

theorem stands_word_iff {n : UInt64} : Stands (name, ofWord n) column ↔ word? column = some n := by
  rw [stands_iff_of_not_omissible (by simp [Omissible, ofWord]), word?_eq_some_iff]

theorem stands_nullable_iff {o : Option String} :
    Stands (name, ofOption str o) column ↔ nullable string? column = some o := by
  constructor
  · rintro (rfl | ⟨hnull | hlist, rfl⟩)
    · exact nullable_ofOption (by simp) string?_str o
    · cases o with
      | none => rfl
      | some s => cases hnull
    · cases o with
      | none => rfl
      | some s => cases hlist
  · intro h
    unfold nullable at h
    split at h
    · rw [← Option.some.inj h]
      exact .inr ⟨.inl rfl, rfl⟩
    · rw [← Option.some.inj h]
      exact .inl rfl
    · obtain ⟨s, hs, rfl⟩ := Option.map_eq_some_iff.1 h
      exact stands_string_iff.2 hs

theorem stands_strings_iff {ss : List String} :
    Stands ("artist_mbids", ofStrings ss) column ↔ withDefault [] strings? column = some ss := by
  cases column with
  | none =>
    show _ ↔ some [] = some ss
    simp [Stands, Omissible, ofStrings, eq_comm]
  | some j =>
    show _ ↔ strings? (some j) = some ss
    rw [strings?_eq_some_iff, stands_some_iff, Option.some.injEq]

end

/-! ## Columns of a row -/

/-- An object that has all columns of a row, among others and in any order. -/
theorem columns?_obj {row fields : List (String × Json)} (hnd : (fields.map Prod.fst).Nodup)
    (hrow : row ⊆ fields) :
    (obj fields).columns? (row.map Prod.fst) = some (row.map fun column => some column.2) := by
  simp only [columns?, List.map_map, Option.some.injEq]
  apply List.map_congr_left
  intro column hcolumn
  exact field?_of_mem hnd (hrow hcolumn)

/-- The columns of a row are found, each with the value that is written or none where it may be
left out. -/
def HasRow (j : Json) (row : List (String × Json)) : Prop :=
  ∃ cs, j.columns? (row.map Prod.fst) = some cs ∧ List.Forall₂ Stands row cs

theorem hasRow_obj_iff {row fields : List (String × Json)} :
    (obj fields).HasRow row ↔ ∀ field ∈ row, Stands field (field? field.1 fields) := by
  simp only [HasRow, columns?, List.map_map, Option.some.injEq, exists_eq_left']
  rw [List.forall₂_map_right_iff, List.forall₂_same]
  rfl

theorem hasRow_arr_iff {row : List (String × Json)} {items : List Json} :
    (arr items).HasRow row ↔ items = row.map Prod.snd := by
  simp only [HasRow, columns?, List.length_map, Option.ite_none_right_eq_some, Option.some.injEq]
  constructor
  · rintro ⟨_, ⟨_, rfl⟩, hstands⟩
    simp only [List.forall₂_map_right_iff, stands_some_iff] at hstands
    exact forall₂_eq_map_iff.1 hstands.flip
  · rintro rfl
    refine ⟨_, ⟨List.length_map _, rfl⟩, ?_⟩
    rw [List.forall₂_map_right_iff, List.forall₂_map_right_iff, List.forall₂_same]
    intro field _
    exact .inl rfl

end Json

/-! ## Records -/

section
variable {j : Json}

theorem RankedArtist.ofJson?_eq_some_iff {r : RankedArtist} :
    ofJson? j = some r ↔ j.HasRow r.fields := by
  constructor
  · intro h
    unfold ofJson? at h
    split at h
    · rename_i hcolumns
      simp only [Option.bind_eq_bind, Option.bind_eq_some_iff, Option.pure_def,
        Option.some.injEq] at h
      obtain ⟨artistId, hid, artistName, hname, listens, hlistens, rfl⟩ := h
      exact ⟨_, hcolumns, .cons (Json.stands_nullable_iff.2 hid)
        (.cons (Json.stands_string_iff.2 hname) (.cons (Json.stands_word_iff.2 hlistens) .nil))⟩
    · cases h
  · rintro ⟨cs, hcolumns, hstands⟩
    change j.columns? columns = some cs at hcolumns
    match cs, hstands with
    | _, .cons hid (.cons hname (.cons hlistens .nil)) =>
      rw [Json.stands_nullable_iff] at hid
      rw [Json.stands_string_iff] at hname
      rw [Json.stands_word_iff] at hlistens
      simp [ofJson?, hcolumns, hid, hname, hlistens]

theorem RankedRelease.ofJson?_eq_some_iff {r : RankedRelease} :
    ofJson? j = some r ↔ j.HasRow r.fields := by
  constructor
  · intro h
    unfold ofJson? at h
    split at h
    · rename_i hcolumns
      simp only [Option.bind_eq_bind, Option.bind_eq_some_iff, Option.pure_def,
        Option.some.injEq] at h
      obtain ⟨releaseId, hid, releaseName, hname, artistName, hartist, artistIds, hartists, listens,
        hlistens, rfl⟩ := h
      exact ⟨_, hcolumns, .cons (Json.stands_nullable_iff.2 hid)
        (.cons (Json.stands_string_iff.2 hname) (.cons (Json.stands_string_iff.2 hartist)
        (.cons (Json.stands_strings_iff.2 hartists)
        (.cons (Json.stands_word_iff.2 hlistens) .nil))))⟩
    · cases h
  · rintro ⟨cs, hcolumns, hstands⟩
    change j.columns? columns = some cs at hcolumns
    match cs, hstands with
    | _, .cons hid (.cons hname (.cons hartist (.cons hartists (.cons hlistens .nil)))) =>
      rw [Json.stands_nullable_iff] at hid
      rw [Json.stands_string_iff] at hname hartist
      rw [Json.stands_strings_iff] at hartists
      rw [Json.stands_word_iff] at hlistens
      simp [ofJson?, hcolumns, hid, hname, hartist, hartists, hlistens]

theorem RankedRecording.ofJson?_eq_some_iff {r : RankedRecording} :
    ofJson? j = some r ↔ j.HasRow r.fields := by
  constructor
  · intro h
    unfold ofJson? at h
    split at h
    · rename_i hcolumns
      simp only [Option.bind_eq_bind, Option.bind_eq_some_iff, Option.pure_def,
        Option.some.injEq] at h
      obtain ⟨recordingId, hid, trackName, htrack, artistName, hartist, releaseName, hname, releaseId,
        hrelease, listens, hlistens, rfl⟩ := h
      exact ⟨_, hcolumns, .cons (Json.stands_nullable_iff.2 hid)
        (.cons (Json.stands_string_iff.2 htrack) (.cons (Json.stands_string_iff.2 hartist)
        (.cons (Json.stands_nullable_iff.2 hname) (.cons (Json.stands_nullable_iff.2 hrelease)
        (.cons (Json.stands_word_iff.2 hlistens) .nil)))))⟩
    · cases h
  · rintro ⟨cs, hcolumns, hstands⟩
    change j.columns? columns = some cs at hcolumns
    match cs, hstands with
    | _, .cons hid (.cons htrack (.cons hartist (.cons hname (.cons hrelease
        (.cons hlistens .nil))))) =>
      rw [Json.stands_nullable_iff] at hid hname hrelease
      rw [Json.stands_string_iff] at htrack hartist
      rw [Json.stands_word_iff] at hlistens
      simp [ofJson?, hcolumns, hid, htrack, hartist, hname, hrelease, hlistens]

end

/-! ## Entries -/

namespace Entry

variable {e : Entry}

/-- The fields of the JSON form, the tag among them. -/
def written (e : Entry) : List (String × Json) := (tagField, .str e.tag) :: e.fields

/-- The items of the entry as an array: the tag and every column in its place. -/
def items (e : Entry) : List Json := .str e.tag :: e.fields.map Prod.snd

/-- No column of an entry has the name of the tag. -/
theorem names_nodup (e : Entry) : (e.written.map Prod.fst).Nodup := by
  cases e <;>
    simp [written, tagField, fields, RankedArtist.fields, RankedRelease.fields,
      RankedRecording.fields]

theorem ofTagged?_eq_some_iff {name : String} {j : Json} :
    ofTagged? name j = some e ↔ name = e.tag ∧ j.HasRow e.fields := by
  unfold ofTagged?
  split
  · rename_i hartist
    cases e <;> simp [hartist, tag, fields, RankedArtist.ofJson?_eq_some_iff]
  · rename_i hartist
    split
    · rename_i hrelease
      cases e <;> simp [hrelease, tag, fields, RankedRelease.ofJson?_eq_some_iff]
    · rename_i hrelease
      split
      · rename_i hrecording
        cases e <;> simp [hrecording, tag, fields, RankedRecording.ofJson?_eq_some_iff]
      · rename_i hrecording
        cases e <;> simp [hartist, hrelease, hrecording, tag]

theorem stands_tag_iff {column : Option Json} :
    Json.Stands (tagField, .str e.tag) column ↔ column = some (.str e.tag) :=
  Json.stands_iff_of_not_omissible (by simp [Json.Omissible])

/-- An object is read as the entry just where each of its fields is found. -/
theorem ofJson?_obj_eq_some_iff {fields : List (String × Json)} :
    ofJson? (.obj fields) = some e ↔
      ∀ field ∈ e.written, Json.Stands field (Json.field? field.1 fields) := by
  rw [written, List.forall_mem_cons, stands_tag_iff, ← Json.hasRow_obj_iff]
  simp only [ofJson?]
  constructor
  · intro h
    split at h
    · rename_i name hname
      obtain ⟨rfl, hrow⟩ := ofTagged?_eq_some_iff.1 h
      exact ⟨hname, hrow⟩
    · cases h
  · rintro ⟨htag, hrow⟩
    rw [htag]
    exact ofTagged?_eq_some_iff.2 ⟨rfl, hrow⟩

/-- An array is read as the entry just where it lists the tag and every column. -/
theorem ofJson?_arr_eq_some_iff {js : List Json} : ofJson? (.arr js) = some e ↔ js = e.items := by
  constructor
  · intro h
    unfold ofJson? at h
    split at h
    · rename_i hobj
      cases hobj
    · rename_i name columns harr
      obtain ⟨rfl, hrow⟩ := ofTagged?_eq_some_iff.1 h
      rw [Json.arr.inj harr, Json.hasRow_arr_iff.1 hrow, items]
    · cases h
  · rintro rfl
    exact ofTagged?_eq_some_iff.2 ⟨rfl, Json.hasRow_arr_iff.2 rfl⟩

end Entry

/-! ## What is written reads back -/

namespace Json

theorem nullable_string (o : Option String) :
    nullable string? (some (ofOption str o)) = some o :=
  nullable_ofOption (by simp) string?_str o

theorem nullable_word (o : Option UInt64) : nullable word? (some (ofOption ofWord o)) = some o :=
  nullable_ofOption (by simp [ofWord]) word?_ofWord o

/-- The same object with its fields in any order. -/
def Shuffles (j j' : Json) : Prop :=
  ∃ fields fields', j = obj fields ∧ j' = obj fields' ∧ fields'.Perm fields

theorem shuffles_refl (fields : List (String × Json)) : (obj fields).Shuffles (obj fields) :=
  ⟨fields, fields, rfl, rfl, .refl fields⟩

theorem shuffles_reverse (fields : List (String × Json)) :
    (obj fields).Shuffles (obj fields.reverse) :=
  ⟨fields, fields.reverse, rfl, rfl, fields.reverse_perm⟩

/-- Fields of distinct names are found in whatever order they stand. -/
theorem Shuffles.exists_fields {fields : List (String × Json)} {j : Json}
    (h : (obj fields).Shuffles j) (hnd : (fields.map Prod.fst).Nodup) :
    ∃ fields', j = obj fields' ∧ (fields'.map Prod.fst).Nodup ∧ fields ⊆ fields' := by
  obtain ⟨_, fields', heq, rfl, hperm⟩ := h
  cases heq
  exact ⟨fields', rfl, (hperm.map Prod.fst).nodup_iff.2 hnd, hperm.symm.subset⟩

end Json

/-! ## Releases and entries -/

section
variable {j : Json}

theorem ReleaseInfo.ofJson?_of_shuffles {info : ReleaseInfo} (h : info.toJson.Shuffles j) :
    ofJson? j = some info := by
  obtain ⟨fields, rfl, hnd, hsub⟩ := h.exists_fields (by simp)
  have hcolumns := Json.columns?_obj hnd hsub
  simp only [List.map_cons, List.map_nil] at hcolumns
  simp [ofJson?, columns, hcolumns, Json.nullable_string, Json.nullable_word, Json.string?_str]

theorem Entry.ofJson?_of_shuffles {e : Entry} (h : e.toJson.Shuffles j) : ofJson? j = some e := by
  obtain ⟨fields, rfl, hnd, hsub⟩ := h.exists_fields e.names_nodup
  rw [ofJson?_obj_eq_some_iff]
  intro field hfield
  exact .inl (Json.field?_of_mem hnd (hsub hfield))

end

/-! ## Rankings -/

namespace Ranking

/-- The value is the JSON form of the ranking, but for the order of the fields in its objects. -/
def Written (r : Ranking) (j : Json) : Prop :=
  ∃ items, List.Forall₂ (fun e item => e.toJson.Shuffles item) r.entries items ∧
    (Json.obj [("records", .arr items), ("count", Json.ofWord r.count)]).Shuffles j

theorem written_toJson (r : Ranking) : r.Written r.toJson := by
  refine ⟨r.entries.map Entry.toJson, ?_, Json.shuffles_refl _⟩
  rw [List.forall₂_map_right_iff, List.forall₂_same]
  intro e _
  exact Json.shuffles_refl _

variable {r : Ranking} {j : Json}

theorem entries?_of_shuffles {es : List Entry} {items : List Json}
    (h : List.Forall₂ (fun e item => e.toJson.Shuffles item) es items) :
    entries? (some (.arr items)) = some es := by
  show items.mapM Entry.ofJson? = some es
  rw [mapM_eq_some_iff]
  exact h.flip.imp fun _ _ => Entry.ofJson?_of_shuffles

theorem ofJson?_eq_of_written (h : r.Written j) : ofJson? j = some r := by
  obtain ⟨items, hitems, hshuffles⟩ := h
  obtain ⟨fields, rfl, hnd, hsub⟩ := hshuffles.exists_fields (by simp)
  have hcolumns := Json.columns?_obj hnd hsub
  simp only [List.map_cons, List.map_nil] at hcolumns
  simp [ofJson?, columns, hcolumns, entries?_of_shuffles hitems, Json.word?_ofWord]

end Ranking

/-- **What is written reads back**: every ranking, every entry as the kind that it is, and all that
is known of a release, with any strings, counts up to the largest word and columns left out. The
fields of an object may also come in any other order. -/
theorem written_reads_back :
    (∀ r : Ranking, Ranking.ofJson? r.toJson = some r ∧
      ∀ j, r.Written j → Ranking.ofJson? j = some r) ∧
    (∀ e : Entry, Entry.ofJson? e.toJson = some e ∧
      ∀ j, e.toJson.Shuffles j → Entry.ofJson? j = some e) ∧
    (∀ info : ReleaseInfo, ReleaseInfo.ofJson? info.toJson = some info ∧
      ∀ j, info.toJson.Shuffles j → ReleaseInfo.ofJson? j = some info) := by
  refine ⟨fun r => ⟨?_, ?_⟩, fun e => ⟨?_, ?_⟩, fun info => ⟨?_, ?_⟩⟩
  · exact Ranking.ofJson?_eq_of_written r.written_toJson
  · exact fun _ => Ranking.ofJson?_eq_of_written
  · exact Entry.ofJson?_of_shuffles (Json.shuffles_refl _)
  · exact fun _ => Entry.ofJson?_of_shuffles
  · exact ReleaseInfo.ofJson?_of_shuffles (Json.shuffles_refl _)
  · exact fun _ => ReleaseInfo.ofJson?_of_shuffles

/-- A recording that has the columns of an artist too, with its fields in reverse and the largest
count there is. -/
theorem written_reads_back_reversed :
    let e : Entry := .recording ⟨none, "T", "A", none, some "r", 18446744073709551615⟩
    let r : Ranking := ⟨[e], 1⟩
    let info : ReleaseInfo := ⟨"", "A", some 0, none⟩
    let je : Json := .obj [("listen_count", .int 18446744073709551615), ("release_mbid", .str "r"),
      ("release_name", .null), ("artist_name", .str "A"), ("track_name", .str "T"),
      ("recording_mbid", .null), ("entity", .str "recording")]
    let jr : Json := .obj [("count", .int 1), ("records", .arr [je])]
    let ji : Json := .obj [("caa_release_mbid", .null), ("caa_id", .int 0), ("artist", .str "A"),
      ("title", .str "")]
    (r.Written jr ∧ Ranking.ofJson? jr = some r) ∧
    (e.toJson.Shuffles je ∧ Entry.ofJson? je = some e) ∧
    (info.toJson.Shuffles ji ∧ ReleaseInfo.ofJson? ji = some info) := by
  intro e r info je jr ji
  have he : e.toJson.Shuffles je := Json.shuffles_reverse ((Entry.tagField, .str e.tag) :: e.fields)
  have hr : r.Written jr := ⟨[je], .cons he .nil,
    Json.shuffles_reverse [("records", .arr [je]), ("count", .int 1)]⟩
  have hinfo : info.toJson.Shuffles ji := Json.shuffles_reverse
    [("title", .str ""), ("artist", .str "A"), ("caa_id", .int 0), ("caa_release_mbid", .null)]
  obtain ⟨hranking, hentry, hrelease⟩ := written_reads_back
  exact ⟨⟨hr, (hranking r).2 jr hr⟩, ⟨he, (hentry e).2 je he⟩, hinfo, (hrelease info).2 ji hinfo⟩

end CoverMosaic
