import McpShield.Protocol.Schema

/-!
# Cutting the cache key

The cache key of a schema is its serialization, cut after 1024 bytes, and a cut inside a character
panics.  `noPanic_iff` says for which schemas it does not.
-/

namespace McpShield.SchemaValidator

/-- The serialized schema is not cut, or it is cut between two characters. -/
def CutOnBoundary (schema : Value) : Prop :=
  Str.len schema.toJsonString ≤ 1024 ∨ Str.IsCharBoundary schema.toJsonString 1024

/-- Whatever the cache holds, no call with the schema panics. -/
structure NoPanic (J : JsonSchema) (schema : Value) : Prop where
  validate : ∀ (sv : SchemaValidator J) inst, (sv.validate schema inst).1.isSome = true
  precompile : ∀ sv : SchemaValidator J, (sv.precompile schema).1.isSome = true

variable {J : JsonSchema} {schema : Value}

theorem isSome_schemaKey : (schemaKey schema).isSome = true ↔ CutOnBoundary schema := by
  unfold schemaKey CutOnBoundary
  dsimp only
  split_ifs with hlong
  · rw [Option.isSome_map, Str.isSome_sliceTo, or_iff_right (not_le.mpr hlong)]
  · exact iff_of_true rfl (.inl (not_lt.mp hlong))

/-- Compiling into the cache panics exactly where the key does. -/
theorem isSome_precompile (sv : SchemaValidator J) (schema : Value) :
    (sv.precompile schema).1.isSome = (schemaKey schema).isSome := by
  unfold precompile
  cases schemaKey schema <;> rfl

/-- A validation panics where the key does, unless the dialect is refused before. -/
theorem isSome_validate (sv : SchemaValidator J) (schema inst : Value) :
    (sv.validate schema inst).1.isSome =
      (!(checkDialect schema).toBool || (schemaKey schema).isSome) := by
  unfold validate
  cases checkDialect schema with
  | error e => rfl
  | ok _ => cases schemaKey schema <;> rfl

/-- No call with a schema panics exactly when its serialization is not cut inside a character. -/
theorem noPanic_iff (J : JsonSchema) (schema : Value) : NoPanic J schema ↔ CutOnBoundary schema := by
  rw [← isSome_schemaKey]
  constructor
  · intro h
    rw [← isSome_precompile (new : SchemaValidator J) schema]
    exact h.precompile new
  · intro hkey
    refine ⟨fun sv inst => ?_, fun sv => ?_⟩
    · rw [isSome_validate, hkey, Bool.or_true]
    · rw [isSome_precompile, hkey]

/-! ## A character at the cut -/

/-- A description of `n` letters and an accented one. -/
def accented (n : ℕ) : String := String.ofList (List.replicate n 'a' ++ ['é'])

theorem escapeChar_accented {n : ℕ} : ∀ c ∈ (accented n).toList, Value.escapeChar c = [c] := by
  intro c hc
  rw [accented, String.toList_ofList, List.mem_append, List.mem_singleton] at hc
  rcases hc with hc | rfl
  · rw [List.eq_of_mem_replicate hc]
    rfl
  · rfl

/-- What the serialization begins with, before the accented letter. -/
def accentedStart (n : ℕ) : String :=
  "\x7b\"description\":\"" ++ String.ofList (List.replicate n 'a')

theorem len_replicate (n : ℕ) : Str.len (String.ofList (List.replicate n 'a')) = n := by
  induction n with
  | zero => rfl
  | succ n ih =>
    rw [List.replicate_succ, Str.len_ofList_cons, ih]
    exact Nat.add_comm 1 n

theorem len_accentedStart (n : ℕ) : Str.len (accentedStart n) = 16 + n := by
  have hquoted : Str.len "\x7b\"description\":\"" = 16 := rfl
  calc Str.len (accentedStart n)
      = Str.len "\x7b\"description\":\"" + Str.len (String.ofList (List.replicate n 'a')) :=
        Str.len_append _ _
    _ = 16 + n := by rw [hquoted, len_replicate]

theorem toJsonString_accented (n : ℕ) (type : String) :
    ∃ rest, (describedSchema (accented n) type).toJsonString =
      accentedStart n ++ String.singleton 'é' ++ rest := by
  obtain ⟨rest, hrest⟩ := toJsonString_describedSchema (escapeChar_accented (n := n)) type
  have hstart : describedStart (accented n) =
      "\x7b\"description\":\"".toList ++ (List.replicate n 'a' ++ ['é']) := by
    rw [describedStart, accented, String.toList_ofList]
    rfl
  refine ⟨String.ofList rest, hrest.trans ?_⟩
  have haccented : accentedStart n =
      "\x7b\"description\":\"" ++ String.ofList (List.replicate n 'a') := rfl
  apply String.toList_inj.mp
  rw [hstart, Str.toList_append_singleton, haccented, String.toList_append,
    String.toList_ofList, String.toList_ofList, String.toList_ofList, List.append_assoc,
    List.append_assoc, List.append_assoc, List.singleton_append, String.toList_ofList]

theorem not_cutOnBoundary_accented (type : String) :
    ¬ CutOnBoundary (describedSchema (accented 1007) type) := by
  obtain ⟨rest, hrest⟩ := toJsonString_accented 1007 type
  have hsize : Char.utf8Size 'é' = 2 := rfl
  have hstart := len_accentedStart 1007
  rw [CutOnBoundary, hrest, not_or]
  refine ⟨?_, Str.not_isCharBoundary (by omega) (by omega)⟩
  rw [Str.len_append, Str.len_append, String.singleton_eq_ofList, Str.len_ofList_cons, hstart, hsize]
  omega

/-- The accented letter takes the bytes 1023 and 1024: the calls with the schema panic. -/
theorem accented_panics :
    ((new : SchemaValidator typeKeyword).validate
        (describedSchema (accented 1007) "object") .emptyObject).1 = none ∧
      ((new : SchemaValidator typeKeyword).precompile
        (describedSchema (accented 1007) "object")).1 = none ∧
      ¬ NoPanic typeKeyword (describedSchema (accented 1007) "object") := by
  have hkey : schemaKey (describedSchema (accented 1007) "object") = none := by
    rw [← Option.not_isSome_iff_eq_none, isSome_schemaKey]
    exact not_cutOnBoundary_accented "object"
  have hvalidate : ((new : SchemaValidator typeKeyword).validate
      (describedSchema (accented 1007) "object") .emptyObject).1 = none := by
    rw [← Option.not_isSome_iff_eq_none, isSome_validate, hkey]
    exact Bool.false_ne_true
  refine ⟨hvalidate, ?_, fun h => ?_⟩
  · rw [precompile, hkey]
  · have hsome := h.validate new .emptyObject
    rw [hvalidate] at hsome
    cases hsome

end McpShield.SchemaValidator
