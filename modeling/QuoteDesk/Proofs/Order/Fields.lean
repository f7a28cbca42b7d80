import QuoteDesk.Order.Reply
/-!
The fields of a reply. An order is accepted exactly if the reply has a record of fields, and every field
is there, not blank, and read as the part of the order that it stands for. An error names the field that
it is about.
-/
namespace QuoteDesk

section

variable {ε ε' α β : Type} {x : Except ε α} {b : β}

theorem bind_eq_ok_iff {f : α → Except ε β} : x >>= f = .ok b ↔ ∃ a, x = .ok a ∧ f a = .ok b := by
  cases x with
  | error e => exact ⟨nofun, nofun⟩
  | ok a =>
    constructor
    · exact fun h => ⟨a, rfl, h⟩
    · rintro ⟨a', ha, h⟩
      obtain rfl := Except.ok.inj ha
      exact h

theorem refusal_eq_ok_iff {p : Prop} [Decidable p] {e : ε} {f : PUnit → Except ε β}
    {y : Except ε β} : (if p then throw e >>= f else y) = .ok b ↔ ¬ p ∧ y = .ok b := by
  split
  · next hp => exact ⟨nofun, fun h => absurd hp h.1⟩
  · next hp => exact ⟨fun h => ⟨hp, h⟩, And.right⟩

theorem mapError_eq_ok_iff {f : ε → ε'} {a : α} : x.mapError f = .ok a ↔ x = .ok a := by
  cases x with
  | error e => exact ⟨nofun, nofun⟩
  | ok a' =>
    have hmap : (Except.ok a' : Except ε α).mapError f = .ok a' := rfl
    rw [hmap, Except.ok.injEq, Except.ok.injEq]

/-- The error, if there is one, is of a kind. -/
def FailsOnly (P : ε → Prop) (x : Except ε α) : Prop := ∀ e, x = .error e → P e

variable {P : ε → Prop}

theorem failsOnly_error {e : ε} (h : P e) : FailsOnly P (.error e : Except ε α) := by
  intro e' he
  obtain rfl := Except.error.inj he
  exact h

theorem FailsOnly.bind {f : α → Except ε β} (hx : FailsOnly P x) (hf : ∀ a, FailsOnly P (f a)) :
    FailsOnly P (x >>= f) := by
  cases x with
  | error e => exact failsOnly_error (hx e rfl)
  | ok a => exact hf a

theorem FailsOnly.mapError {f : ε → ε'} {Q : ε' → Prop} (hx : FailsOnly (fun e => Q (f e)) x) :
    FailsOnly Q (x.mapError f) := by
  cases x with
  | error e => exact failsOnly_error (hx e rfl)
  | ok a => nofun

end

namespace FirmOrder

def fields? (body : Json) : Option (List (String × Json)) :=
  match (body.record? [("order", .listed)]).bind (Json.field? "order") with
  | none => none
  | some .null => none
  | some order => order.record? (fieldNames.map (·, .listed))

def IsAbsent (v : Json) : Prop := v = .null ∨ ∃ s, v = .string s ∧ (Text.trim s).toList = []

variable {body v : Json} {fields : List (String × Json)} {o : FirmOrder} {name : String}

theorem ofReply_eq_ok_iff : ofReply body = .ok o ↔
    ∃ fields, fields? body = some fields ∧ ofFields fields = .ok o := by
  unfold ofReply
  split
  · next hrecord => simp [fields?, hrecord]
  · next reply hrecord =>
    split
    · next horder => simp [fields?, hrecord, horder]
    · next horder => simp [fields?, hrecord, horder]
    · next order hnull horder =>
      have hfields : fields? body = order.record? (fieldNames.map (·, .listed)) := by
        simp [fields?, hrecord, horder]
      rw [hfields]
      cases order.record? (fieldNames.map (·, .listed)) with
      | none => simp
      | some fields => simp

theorem present_eq_ok_iff : present name fields = .ok v ↔
    Json.field? name fields = some v ∧ ¬ IsAbsent v := by
  unfold present
  split
  · next hnone => simp [hnone]
  · next hnull =>
    simp only [hnull, Option.some.injEq, reduceCtorEq, false_iff]
    rintro ⟨rfl, hv⟩
    exact hv (.inl rfl)
  · next s hs =>
    simp only [hs, Option.some.injEq]
    split
    · next hblank =>
      simp only [reduceCtorEq, false_iff]
      rintro ⟨rfl, hv⟩
      exact hv (.inr ⟨s, rfl, by simpa [String.isEmpty_iff] using hblank⟩)
    · next hblank =>
      rw [Except.ok.injEq, iff_self_and]
      rintro rfl (h | ⟨s', h, hs'⟩)
      · cases h
      · obtain rfl := Json.string.inj h
        exact hblank (by simpa [String.isEmpty_iff] using hs')
  · next w hnull hstring hw =>
    simp only [hw, Option.some.injEq, Except.ok.injEq, iff_self_and]
    rintro rfl (h | ⟨s, h, -⟩)
    · exact hnull h
    · exact hstring s h

theorem readField_eq_ok_iff {α : Type} {read : Json → Except FieldFault α} {a : α} :
    readField name read fields = .ok a ↔
      ∃ v, Json.field? name fields = some v ∧ ¬ IsAbsent v ∧ read v = .ok a := by
  simp only [readField, bind_eq_ok_iff, mapError_eq_ok_iff, present_eq_ok_iff, and_assoc]

theorem ofFields_eq_ok_iff : ofFields fields = .ok o ↔
    readField "maker" addressOf fields = .ok o.maker ∧
      readField "taker" addressOf fields = .ok o.taker ∧
      readField "makerAsset" addressOf fields = .ok o.makerAsset ∧
      readField "takerAsset" addressOf fields = .ok o.takerAsset ∧
      readField "makerAmount" numberOf fields = .ok o.makerAmount ∧
      readField "takerAmount" numberOf fields = .ok o.takerAmount ∧
      readField "signature" signatureOf fields = .ok o.signature ∧
      o.signature ≠ [] ∧
      readField "nonceAndMeta" numberOf fields = .ok o.nonceAndMeta ∧
      readField "expiry" expiryOf fields = .ok o.expiry := by
  simp only [ofFields, bind_eq_ok_iff, refusal_eq_ok_iff]
  constructor
  · rintro ⟨maker, hmaker, taker, htaker, makerAsset, hmakerAsset, takerAsset, htakerAsset,
      makerAmount, hmakerAmount, takerAmount, htakerAmount, signature, hsignature, hsigned,
      nonceAndMeta, hnonce, expiry, hexpiry, ho⟩
    obtain rfl := Except.ok.inj ho
    exact ⟨hmaker, htaker, hmakerAsset, htakerAsset, hmakerAmount, htakerAmount, hsignature,
      by simpa using hsigned, hnonce, hexpiry⟩
  · rintro ⟨hmaker, htaker, hmakerAsset, htakerAsset, hmakerAmount, htakerAmount, hsignature,
      hsigned, hnonce, hexpiry⟩
    exact ⟨_, hmaker, _, htaker, _, hmakerAsset, _, htakerAsset, _, hmakerAmount, _, htakerAmount,
      _, hsignature, by simpa using hsigned, _, hnonce, _, hexpiry, rfl⟩

end FirmOrder

def ReplyError.field : ReplyError → String
  | .missing field => field
  | .invalid field _ => field

namespace FirmOrder

def NamesField (e : ReplyError) : Prop := e.field ∈ fieldNames

theorem failsOnly_present {name : String} (hname : name ∈ fieldNames)
    (fields : List (String × Json)) : FailsOnly NamesField (present name fields) := by
  unfold present
  split
  · exact failsOnly_error hname
  · exact failsOnly_error hname
  · split
    · exact failsOnly_error hname
    · nofun
  · nofun

theorem failsOnly_readField {α : Type} {name : String} (hname : name ∈ fieldNames)
    (read : Json → Except FieldFault α) (fields : List (String × Json)) :
    FailsOnly NamesField (readField name read fields) :=
  (failsOnly_present hname fields).bind fun _ => .mapError fun _ _ => hname

theorem failsOnly_ofFields (fields : List (String × Json)) :
    FailsOnly NamesField (ofFields fields) := by
  have hsignature : NamesField (.missing "signature") := (by decide : "signature" ∈ fieldNames)
  unfold ofFields
  iterate 7 refine (failsOnly_readField (by decide) _ fields).bind fun _ => ?_
  split
  · exact failsOnly_error hsignature
  · iterate 2 refine (failsOnly_readField (by decide) _ fields).bind fun _ => ?_
    nofun

/-- An error about a reply is about its order or about one of the fields of it. -/
theorem field_of_ofReply {body : Json} {e : ReplyError} (h : ofReply body = .error e) :
    e.field = "order" ∨ e.field ∈ fieldNames := by
  unfold ofReply at h
  split at h
  · cases h
    exact .inl rfl
  · split at h
    · cases h
      exact .inl rfl
    · cases h
      exact .inl rfl
    · split at h
      · cases h
        exact .inl rfl
      · exact .inr (failsOnly_ofFields _ e h)

end FirmOrder
end QuoteDesk
