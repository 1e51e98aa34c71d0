import Cdenv.TextScan

/-!
# Comma-separated key-value fields

The grammar of a compound option value. A later field of the same key replaces an earlier
one. In a quoted record a field may stand in double quotes and hold commas. Rendering a list
of fields and reading it back is the identity exactly as long as the fields are `Clean`.
-/
namespace Cdenv.FieldList
open TextScan List

abbrev Field := Text × Option Text

def cut (field : Text) : Field :=
  match splitOnce '=' field with
  | some (key, value) => (key, some value)
  | none => (field, none)

/-- Fields stand between commas, each cut at its first `=`. -/
def fields (s : Text) : List Field := (s.splitOn ',').map cut

/-- Where the reader of a quoted record stands in a field. -/
inductive CsvMode where
  | start | plain | quoted | closed

/-- The fields of one record in which a field may stand in double quotes. A quote in a quoted
field is written twice, and the record ends with its line. -/
def csvFields : CsvMode → Text → Text → Option (List Text)
  | .quoted, _, [] => none
  | .quoted, field, '"'::rest => csvFields .closed field rest
  | .quoted, field, c::rest => csvFields .quoted (field++[c]) rest
  | _, field, [] | _, field, ['\r'] | _, field, '\n'::_ | _, field, '\r':: '\n'::_ => some [field]
  | .closed, field, '"'::rest => csvFields .quoted (field++['"']) rest
  | .start, field, '"'::rest => csvFields .quoted field rest
  | _, field, ','::rest => (csvFields .start [] rest).map (field :: ·)
  | .closed, _, _ | .plain, _, '"'::_ => none
  | _, field, c::rest => csvFields .plain (field++[c]) rest

/-- Empty lines before the record are skipped. -/
def csvRecord (s : Text) : Option (List Field) :=
  (csvFields .start [] (s.dropWhile (· == '\n'))).map (·.map cut)

def renderField : Field → Text
  | (key, some value) => key++ '='::value
  | (key, none) => key

def render (l : List Field) : Text := [','].intercalate (l.map renderField)

/-- The last value assigned to any key the test accepts. -/
def assigned (isKey : Text → Bool) (l : List Field) : Option Text :=
  l.foldl (fun found f => if isKey f.1 then f.2.or found else found) none

/-- No text holds a character of the grammar. -/
structure Clean (f : Field) : Prop where
  key_equals : '=' ∉ f.1
  key_comma : ',' ∉ f.1
  value_comma : ∀ v, f.2 = some v → ',' ∉ v

variable {f : Field}

theorem cut_renderField (h : Clean f) : cut (renderField f) = f := by
  obtain ⟨key,val⟩ := f
  cases val with
  | none => simp [renderField,cut,splitOnce_eq_none.mpr h.key_equals]
  | some v => simp [renderField,cut,splitOnce_append v h.key_equals]

theorem comma_not_mem_renderField (h : Clean f) : ',' ∉ renderField f := by
  obtain ⟨key,val⟩ := f
  cases val with
  | none => exact h.key_comma
  | some v =>
    have hk := h.key_comma
    have hv := h.value_comma v rfl
    simp [renderField,hk,hv]

theorem fields_render {l : List Field} (hne : l ≠ []) (h : ∀ f ∈ l, Clean f) :
    fields (render l) = l := by
  have hs : (render l).splitOn ',' = l.map renderField := by
    refine splitOn_intercalate ',' ?_ (by simpa using hne)
    intro pc hp
    obtain ⟨f,hf,rfl⟩ := mem_map.mp hp
    exact comma_not_mem_renderField (h f hf)
  rw [fields,hs,map_map]
  calc l.map (cut ∘ renderField) = l.map id := map_congr_left fun f hf => cut_renderField (h f hf)
    _ = l := map_id l

theorem render_cons (f : Field) (l : List Field) :
    render (f::l) = renderField f++l.flatMap fun g => ','::renderField g := by
  induction l generalizing f with
  | nil => simp [render]
  | cons g l ih =>
    have h := ih g
    simp only [render,map_cons] at h ⊢
    rw [intercalate_cons_cons,h]
    simp

theorem fields_value_comma {s v : Text} (h : f ∈ fields s) (hv : f.2 = some v) : ',' ∉ v := by
  obtain ⟨pc,hp,rfl⟩ := mem_map.mp h
  have hpi := not_mem_of_mem_splitOn hp
  unfold cut at hv
  split at hv
  · next key val hs =>
    cases hv
    rw [(splitOnce_spec hs).1] at hpi
    intro hc
    exact hpi (mem_append_right _ (mem_cons_of_mem _ hc))
  · cases hv

theorem assigned_append_singleton (isKey : Text → Bool) (l : List Field) (f : Field) :
    assigned isKey (l++[f]) = if isKey f.1 then f.2.or (assigned isKey l) else assigned isKey l := by
  simp [assigned]

/-- The right part of a list is read with priority. -/
theorem assigned_append (isKey : Text → Bool) (l m : List Field) :
    assigned isKey (l++m) = (assigned isKey m).or (assigned isKey l) := by
  induction m using reverseRecOn with
  | nil => simp [assigned]
  | append_singleton m f ih =>
    rw [← append_assoc,assigned_append_singleton,assigned_append_singleton,ih]
    split_ifs
    · rw [Option.or_assoc]
    · rfl

theorem assigned_cons (isKey : Text → Bool) (f : Field) (l : List Field) :
    assigned isKey (f::l) = (assigned isKey l).or (if isKey f.1 then f.2 else none) := by
  rw [← singleton_append,assigned_append]
  simp [assigned]

variable {isKey : Text → Bool}

theorem exists_of_assigned {l : List Field} {v : Text} (h : assigned isKey l = some v) :
    ∃ f ∈ l, isKey f.1 = true ∧ f.2 = some v := by
  induction l with
  | nil => cases h
  | cons f l ih =>
    rw [assigned_cons,Option.or_eq_some_iff] at h
    rcases h with h | ⟨-,h⟩
    · obtain ⟨g,hg,hk⟩ := ih h
      exact ⟨g,mem_cons_of_mem _ hg,hk⟩
    · split_ifs at h with hk
      exact ⟨f,mem_cons_self,hk,h⟩

/-- No value that is read holds a comma. -/
theorem assigned_comma {s v : Text} (h : assigned isKey (fields s) = some v) : ',' ∉ v := by
  obtain ⟨f,hf,-,hv⟩ := exists_of_assigned h
  exact fields_value_comma hf hv

end Cdenv.FieldList
