import ProviderMock.Proofs.RoundTrip

/-!
# From JSON to JSON

A target is read from JSON at the type of a schema, a replacement is read from JSON without a type,
the data source is read, and its value is written as JSON again. Each stage keeps what the next one
needs: `Value.Expressible` says what JSON needs of a value, and conformance to the type of the
schema is what makes the written value readable again.
-/

namespace ProviderMock

namespace Value

/-- A value is expressible if it passes the four tests of this everywhere. -/
theorem expressible_of_forall_robust {v : Value}
    (h : ∀ test, Robust test → v.everywhere test = true) : v.Expressible where
  wellFormed := everywhere_isOrdered v ▸ h _ robust_isOrdered
  collapsed := h _ robust_holdsApart
  known := everywhere_not_isUnknown v ▸ h _ robust_not_isUnknown
  finite := h _ robust_isFinite

end Value

open Value Synthesis

/-- A type that is implied by a well-formed block is well-formed. -/
theorem Block.isWellFormed_impliedType {schema : Block} (h : schema.isWellFormed = true) :
    schema.impliedType.isWellFormed = true := by
  have hroot : (Part.nested .single schema.parts).WellFormed := Block.wellFormed_parts schema h
  rw [Block.impliedType_eq]
  exact hroot.type

/-- The value of a data source passes every robust test everywhere, if its target was read from data
at a well-formed type and its replacement from data without a type. -/
theorem everywhere_readDataSource {test : Value → Bool} (htest : Robust test) {schema : Block}
    (hschema : schema.isWellFormed = true) {json : Json} (hdata : json.isData = true)
    {target : Value} (htarget : decode schema.impliedType json = .ok target) {r : Replacement}
    (hr : ∀ x ∈ r.value, ∃ j, j.isData = true ∧ infer j = .ok x) (g : Generator) :
    (readDataSource schema target r g).value.everywhere test = true := by
  have htype := Block.isWellFormed_impliedType hschema
  have hplan : Mode.read = .plan → ∀ t : Ty, t.isWellFormed = true → test (.unknown t) = true :=
    nofun
  refine everywhere_synthesize htest hplan hschema (htest.decode htarget htype hdata)
    (fun x hx => ?_) g
  obtain ⟨j, hj, hread⟩ := hr x hx
  exact (htest.infer hread hj).2

/-- A target of the type of a schema is completed to a value of the type. -/
theorem conforms_readDataSource {schema : Block} (hschema : schema.isWellFormed = true)
    {target : Value} (h : Conforms target schema.impliedType) (r : Replacement) (g : Generator) :
    Conforms (readDataSource schema target r g).value schema.impliedType := by
  have hcompletes : CompletesObject .read Typed schema.parts target
      (readDataSource schema target r g).value :=
    completes_synthesize (Q := fun _ => True) (fun _ _ _ _ _ => trivial)
      (fun t target x path p hunset _ ht =>
        (⟨.read, r.range⟩ : Context).conforms_leaf ht hunset x path p)
      schema target (fun _ _ => trivial) g
  exact hcompletes.conforms hschema (.inr h)

/-- **From JSON to JSON.** Where the type of a schema has no dynamic parts, a target is read from
JSON at this type and a replacement, if any, from JSON without a type, the value of the data source
is known, has finite numbers only, and is written as JSON from which the type reads it back. -/
theorem decode_toJson_readDataSource {schema : Block} (hschema : schema.isWellFormed = true)
    (hstatic : schema.impliedType.isStatic = true) {json : Json} (hdata : json.isData = true)
    {target : Value} (htarget : decode schema.impliedType json = .ok target) (r : Replacement)
    (hr : ∀ x ∈ r.value, ∃ j, j.isData = true ∧ infer j = .ok x) (g : Generator) :
    let v := (readDataSource schema target r g).value
    v.isWhollyKnown = true ∧ v.hasFiniteNumbers = true ∧
      ∃ w, decode schema.impliedType v.toJson = .ok w ∧ w.same v = true := by
  intro v
  have htype := Block.isWellFormed_impliedType hschema
  have hexpressible : v.Expressible := expressible_of_forall_robust fun test htest =>
    everywhere_readDataSource htest hschema hdata htarget hr g
  have hconforms : Conforms v schema.impliedType :=
    conforms_readDataSource hschema (conforms_of_decode htarget htype hstatic) r g
  exact ⟨hexpressible.known, hexpressible.finite,
    exists_decode_toJson hconforms htype hstatic hexpressible⟩

/-! ### A server -/

/-- A server with a disk of which the size is known and one of which nothing is known. -/
def serverJson : Json :=
  .object [("disk", .array [.object [("size", .number (.int 10 (by decide)))], .null])]

/-- A serial number for the disks of a server that is no text, and an identifier that cannot be
one. -/
def serialJson : Json :=
  .object [("disk", .object [("serial", .number (.int 7 (by decide)))]), ("id", .array [])]

/-- The server is read with the serial number. -/
theorem decode_toJson_readDataSource_server :
    server.isWellFormed = true ∧ server.impliedType.isStatic = true ∧
      serverJson.isData = true ∧ serialJson.isData = true ∧
      ∃ target x, decode server.impliedType serverJson = .ok target ∧ infer serialJson = .ok x ∧
        let v := (readDataSource server target ⟨some x, SourceRange.unspecified⟩
          (Generator.seeded 0)).value
        v.isWhollyKnown = true ∧ v.hasFiniteNumbers = true ∧
          ∃ w, decode server.impliedType v.toJson = .ok w ∧ w.same v = true := by
  obtain ⟨target, htarget⟩ : ∃ target, decode server.impliedType serverJson = .ok target := ⟨_, rfl⟩
  obtain ⟨x, hx⟩ : ∃ x, infer serialJson = .ok x := ⟨_, rfl⟩
  have hserver : serverJson.isData = true := by decide
  have hserial : serialJson.isData = true := by decide
  refine ⟨by decide, by decide, hserver, hserial, target, x, htarget, hx, ?_⟩
  refine decode_toJson_readDataSource (by decide) (by decide) hserver htarget
    ⟨some x, SourceRange.unspecified⟩ (fun y hy => ?_) (Generator.seeded 0)
  obtain rfl := Option.some.inj hy
  exact ⟨serialJson, hserial, hx⟩

end ProviderMock
