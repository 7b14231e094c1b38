import Mathlib
import CallBundle.Proofs.Address
import CallBundle.Proofs.Coercion
import CallBundle.Proofs.Run

/-!
Texts where an address is expected. A text is classified once where it is read itself, and a second
time where the name it was found to be is read; trimming and classifying twice is the same as doing
so once. Main statement: `entity_found_alike`.
-/

namespace CallBundle

variable {σ : Type}

namespace Entity

/-- A text without the white space around it. -/
def trimmed (raw : String) : String := String.ofList (Text.trim raw.toList)

theorem toList_trimmed (raw : String) : (trimmed raw).toList = Text.trim raw.toList :=
  String.toList_ofList

theorem trimmed_trimmed (raw : String) : trimmed (trimmed raw) = trimmed raw := by
  rw [trimmed, toList_trimmed, Text.trim_trim]
  rfl

theorem ofText?_trimmed (raw : String) : Address.ofText? (trimmed raw) = Address.ofText? raw := by
  rw [Address.ofText?, Address.ofText?, toList_trimmed, Text.trim_trim]

theorem ofText_of_some {raw : String} {a : Address} (h : Address.ofText? raw = some a) :
    ofText raw = .address a := by
  rw [ofText, h]

theorem ofText_of_none {raw : String} (h : Address.ofText? raw = none) :
    ofText raw = .identifier (trimmed raw) := by
  rw [ofText, h]
  rfl

theorem ofText_trimmed (raw : String) : ofText (trimmed raw) = ofText raw := by
  cases h : Address.ofText? raw with
  | some a => rw [ofText_of_some h, ofText_of_some ((ofText?_trimmed raw).trans h)]
  | none => rw [ofText_of_none h, ofText_of_none ((ofText?_trimmed raw).trans h), trimmed_trimmed]

/-- What an entity is shown as is read as that entity. -/
theorem ofText_text (raw : String) : ofText (ofText raw).text = ofText raw := by
  cases h : Address.ofText? raw with
  | some a =>
    rw [ofText_of_some h]
    exact ofText_of_some a.ofText?_text
  | none =>
    rw [ofText_of_none h]
    exact (ofText_trimmed raw).trans (ofText_of_none h)

/-- The names of the zero address are no texts of addresses. -/
theorem ofText?_of_mem_zeroNames {raw : String} (h : trimmed raw ∈ zeroNames) :
    Address.ofText? raw = none := by
  have hnone : ∀ name ∈ zeroNames, Address.ofText? name = none := by decide
  rw [← ofText?_trimmed]
  exact hnone _ h

end Entity

namespace Context

variable {ctx : Context σ} {raw : String}

theorem entity_of_ofText? {a : Address} (h : Address.ofText? raw = some a) :
    ctx.entity (.ofText raw) = pure a := by
  rw [Entity.ofText_of_some h]
  rfl

theorem entity_of_mem_zeroNames (h : Entity.trimmed raw ∈ Entity.zeroNames) :
    ctx.entity (.ofText raw) = pure .zero := by
  rw [Entity.ofText_of_none (Entity.ofText?_of_mem_zeroNames h)]
  exact if_pos h

/-- Any other text names something that has to be looked up. -/
theorem locates_ofText (hraw : ¬ HexText raw 20) (s : σ) :
    ctx.Locates (.identifier (Entity.trimmed raw)) s (requests (ctx.entity (.ofText raw) s).events)
      (ctx.entity (.ofText raw) s).result (ctx.entity (.ofText raw) s).state := by
  rw [Entity.ofText_of_none ((Address.ofText?_eq_none_iff raw).mpr hraw)]
  exact ctx.locates_entity _ s

/-- An entity is read where an address is expected as the text is that it comes from. -/
theorem coerce_address_ofEntity (ctx : Context σ) (raw : String) :
    ctx.coerce .address (.ofEntity (.ofText raw)) =
      ctx.entity (.ofText raw) >>= fun a => Pure.pure (Abi.Value.address a) := by
  cases h : Address.ofText? raw with
  | some a =>
    rw [entity_of_ofText? h, Entity.ofText_of_some h, pure_bind]
    rfl
  | none =>
    have hentity : Param.ofEntity (.ofText raw) = (.string (Entity.trimmed raw) : Param σ) := by
      rw [Entity.ofText_of_none h]
      rfl
    rw [hentity, coerce_address_string, Entity.ofText_trimmed]

/-- A text, the entity that it is, and that entity as a parameter come to the same address or fail
in the same way, and the same is asked for them. Addresses and the names of the zero address never
reach the directory; any other text is looked up once, without the white space around it. -/
theorem entity_found_alike (ctx : Context σ) (raw : String) (s : σ) :
    let found := ctx.entity (.ofText raw) s
    let read : Outcome σ Abi.Value := ⟨found.result.map .address, found.state, found.events⟩
    ctx.coerce .address (.string raw) s = read ∧
      ctx.coerce .address (.ofEntity (.ofText raw)) s = read ∧
      (HexText raw 20 → ∃ a, Address.ofText? raw = some a ∧ found = ⟨.ok a, s, []⟩) ∧
      (Entity.trimmed raw ∈ Entity.zeroNames → found = ⟨.ok .zero, s, []⟩) ∧
      (¬ HexText raw 20 → Entity.trimmed raw ∉ Entity.zeroNames →
        (ctx.directory = none → requests found.events = [] ∧
          found.result = .error (.unresolvedEntity (Entity.trimmed raw)) ∧ found.state = s) ∧
        ∀ directory, ctx.directory = some directory →
          requests found.events = [.lookup (Entity.trimmed raw)] ∧
            (found.result, found.state) = directory.lookup (Entity.trimmed raw) s) ∧
      Entity.ofText (Entity.ofText raw).text = Entity.ofText raw := by
  intro found read
  refine ⟨?_, ?_, fun haddress => ?_, fun hzero => ?_, fun haddress hzero => ⟨fun hnone => ?_, ?_⟩,
    Entity.ofText_text raw⟩
  · rw [coerce_address_string]
    exact Run.bind_pure_apply _ _ s
  · rw [coerce_address_ofEntity]
    exact Run.bind_pure_apply _ _ s
  · obtain ⟨a, ha⟩ := (Address.exists_ofText?_iff raw).mpr haddress
    exact ⟨a, ha, congrFun (entity_of_ofText? ha) s⟩
  · exact congrFun (entity_of_mem_zeroNames hzero) s
  · exact (locates_ofText haddress s).unique (.missing s hzero hnone)
  · intro directory hdirectory
    obtain ⟨htrace, hresult, hstate⟩ :=
      (locates_ofText haddress s).unique (.lookup hzero hdirectory rfl)
    exact ⟨htrace, Prod.ext hresult hstate⟩

theorem entity_found_alike_names :
    let ctx : Context Nat := ⟨18, some ⟨fun _ n => (.ok .zero, n + 1)⟩⟩
    ctx.entity (.ofText "\tXDAI ") 7 = ⟨.ok .zero, 7, []⟩ ∧
      (∃ a, Address.ofText? " 0X00000000000000000000000000000000000000aB\n" = some a ∧
        ctx.entity (.ofText " 0X00000000000000000000000000000000000000aB\n") 7 = ⟨.ok a, 7, []⟩) ∧
      requests (ctx.coerce .address (.string " alice ") 7).events = [.lookup "alice"] := by
  intro ctx
  refine ⟨?_, ?_, ?_⟩
  · exact (ctx.entity_found_alike "\tXDAI " 7).2.2.2.1 (by decide)
  · refine (ctx.entity_found_alike _ 7).2.2.1 ((Address.exists_ofText?_iff _).mp ?_)
    exact Option.isSome_iff_exists.mp (by decide +kernel)
  · obtain ⟨hstring, -, -, -, hname, -⟩ := ctx.entity_found_alike " alice " 7
    have halice : ¬ HexText " alice " 20 := (Address.ofText?_eq_none_iff _).mp (by decide +kernel)
    rw [hstring]
    exact ((hname halice (by decide)).2 _ rfl).1

end Context

end CallBundle
