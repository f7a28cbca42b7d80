import QuoteDesk.Proofs.Desk.Answered
/-!
Which pair a book is written for. A cycle of the prices decides that once, when it takes its reply: a
book is for a name that is listed then. Pairs may be replaced before the book is written, for a cycle
that is under way goes on when the polling of its feed is stopped. Main statement: the name is listed
at the moment of the write exactly if no listing has come in between or the last one to come has the
name as well.
-/
namespace QuoteDesk

namespace Delivery

/-- What a delivery asks for, each book with the name that it came under. -/
def writes (d : Delivery) : List (String × FeedAction) :=
  d.listing.entries.flatMap fun e =>
    (((d.pairs.named? e.1).bind d.tokens.legs?).map fun legs =>
      (FeedAction.publishSides legs.1 legs.2 e.2).map (e.1, ·)).getD []

theorem map_writes (w : State) (t : Table TwoSided) (now : Nat) :
    (writes ⟨now, w.tokens, w.pairs, t⟩).map (·.2) = FeedAction.ofPrices w t := by
  rw [FeedAction.ofPrices_eq, writes, List.map_flatMap]
  congr 1
  funext e
  cases (w.pairs.named? e.1).bind w.tokens.legs? with
  | none => rfl
  | some legs => simp [Function.comp_def]

/-- Each book is for a pair that is listed, whose tokens are known, and that was published with this
side. -/
theorem listed_of_mem_writes {d : Delivery} {name : String} {a : FeedAction}
    (h : (name, a) ∈ d.writes) : ∃ offer p base quote side, d.listing.find? name = some offer ∧
      d.pairs.named? name = some p ∧ d.tokens.legs? p = some (base, quote) ∧
      offer.side side ≠ [] ∧ a = .publish base.address quote.address side (offer.side side) := by
  obtain ⟨e, he, hwrite⟩ := List.mem_flatMap.mp h
  cases hlegs : (d.pairs.named? e.1).bind d.tokens.legs? with
  | none =>
    rw [hlegs] at hwrite
    cases hwrite
  | some legs =>
    rw [hlegs] at hwrite
    obtain ⟨a', ha', heq⟩ := List.mem_map.mp hwrite
    obtain ⟨rfl, rfl⟩ := Prod.mk.inj heq
    obtain ⟨p, hp, hlegs⟩ := Option.bind_eq_some_iff.mp hlegs
    obtain ⟨side, hne, rfl⟩ := FeedAction.mem_publishSides.mp ha'
    exact ⟨e.2, p, legs.1, legs.2, side, Table.find?_eq_some_iff.mpr he, hp, hlegs, hne, rfl⟩

end Delivery

namespace Session

open Machine

variable {settings : Settings} {s : Session} {id : TaskId}

def installed? (s : Session) : Event → Option PairDirectory
  | .move (.advance id) =>
    match s.machine.performs? id with
    | some (.replacePairs d) => some d
    | _ => none
  | _ => none

def installs (settings : Settings) (s : Session) (es : List Event) : List PairDirectory :=
  s.log settings installed? es

theorem pairs_step (settings : Settings) (s : Session) (e : Event) :
    (s.step settings e).machine.world.pairs = (s.installed? e).getD s.machine.world.pairs := by
  by_cases he : ∃ k, e = .move (.advance k)
  · obtain ⟨k, rfl⟩ := he
    change (s.machine.advance settings.behaviour k).world.pairs = _
    cases hp : s.machine.performs? k with
    | some a =>
      rw [world_of_performs? hp]
      simp only [installed?, hp]
      cases a <;> rfl
    | none =>
      have hnone : s.installed? (.move (.advance k)) = none := by simp only [installed?, hp]
      rw [hnone]
      cases (advance_effect settings.behaviour s.machine k).2 with
      | still _ _ hworld => exact congrArg State.pairs hworld
      | settled _ _ hworld =>
        rw [hworld]
        rfl
      | received _ _ _ hworld =>
        rw [hworld]
        exact (State.receive_keeps settings _ s.machine.world).2.1
      | performed _ htodo =>
        cases hp.symm.trans ((performs?_eq_some_iff_todo settings.behaviour).mpr htodo)
  · have hnone : s.installed? e = none := by
      unfold installed?
      split
      · next k => exact absurd ⟨k, rfl⟩ he
      · rfl
    rw [hnone]
    exact (aside_step settings s e fun k hk => he ⟨k, hk⟩).world.pairs

theorem pairs_run (settings : Settings) (s : Session) (es : List Event) :
    (s.run settings es).machine.world.pairs =
      (s.installs settings es).getLast?.getD s.machine.world.pairs := by
  induction es generalizing s with
  | nil => rfl
  | cons e es ih =>
    have hcons : s.installs settings (e :: es) =
        (s.installed? e).toList ++ (s.step settings e).installs settings es := rfl
    rw [run_cons, ih, pairs_step, hcons, List.getLast?_append, Option.getD_or]
    cases s.installed? e <;> rfl

/-- Where a book comes from that is still to be written, with `behind` to be done after it: the delivery,
the name that it came under there, and what has happened since. -/
structure Origin (settings : Settings) (s : Session) (es : List Event) (id : TaskId) (a : FeedAction)
    (behind : List FeedAction) (before since : List Event) (d : Delivery) (name : String) : Prop where
  events : es = before ++ .move (.advance id) :: since
  delivery : (s.run settings before).delivered? settings (.move (.advance id)) = some d
  none_since : id ∉ (s.run settings (before ++ [.move (.advance id)])).takers settings since
  write : ∃ done rest, d.writes = done ++ (name, a) :: rest ∧ behind = rest.map (·.2)

theorem exists_origin (hidle : s.machine.todo id = []) {es : List Event} {base quote : String}
    {side : BookSide} {b : Book} {ahead behind : List FeedAction}
    (hwrite : (s.run settings es).machine.todo id =
      ahead ++ .publish base quote side b :: behind) :
    ∃ before since d name,
      s.Origin settings es id (.publish base quote side b) behind before since d name := by
  have hbusy : (s.run settings es).machine.todo id ≠ [] := by
    rw [hwrite]
    exact List.append_ne_nil_of_right_ne_nil _ (List.cons_ne_nil _ _)
  obtain ⟨before, since, feed, done, rfl, hunder⟩ := exists_underway hidle es hbusy
  have hwork := hunder.work
  rw [hwrite, ← List.append_assoc] at hwork
  have hmem : .publish base quote side b ∈
      (State.receive settings feed (s.run settings before).machine.world).2.1 :=
    hwork ▸ List.mem_append_right _ List.mem_cons_self
  obtain rfl : Feed.prices = feed := State.feed_of_mem_receive hmem
  rw [State.receive_prices] at hwork
  cases ht : settings.priced? (s.run settings before).machine.world with
  | none =>
    rw [ht] at hwork
    exact absurd hwork.symm (List.append_ne_nil_of_right_ne_nil _ (List.cons_ne_nil _ _))
  | some t =>
    rw [ht, Option.map_some, Option.getD_some,
      ← Delivery.map_writes _ t (s.run settings before).machine.now] at hwork
    obtain ⟨earlier, late, hsplit, -, hlate⟩ := List.map_eq_append_iff.mp hwork
    obtain ⟨⟨name, a⟩, rest, rfl, rfl, hrest⟩ := List.map_eq_cons_iff.mp hlate
    have hd := delivered?_eq_some_iff.mpr ⟨hunder.receipt, t, ht, rfl⟩
    exact ⟨before, since, _, name, rfl, hd, hunder.none_since, earlier, rest, hsplit, hrest.symm⟩

/-- Every book that is still to be written at some moment, whichever of them is the next, is for a name
that was listed, with both tokens known, when the task took its last reply. At that moment the name is
listed exactly if no listing of pairs has come since the reply or the last one has it. -/
theorem write_listed_iff (settings : Settings) (verifier : Verifier) {es : List Event}
    {base quote : String} {side : BookSide} {b : Book} {ahead behind : List FeedAction}
    (hwrite : ((initial verifier).run settings es).machine.todo id =
      ahead ++ .publish base quote side b :: behind) :
    ∃ before since d name p x y,
      (initial verifier).Origin settings es id (.publish base quote side b) behind before since d
        name ∧
      d.pairs.named? name = some p ∧ d.tokens.legs? p = some (x, y) ∧
      x.address = base ∧ y.address = quote ∧
      (((initial verifier).run settings es).machine.world.pairs.contains name = true ↔
        ∀ q, (((initial verifier).run settings before).installs settings
          (.move (.advance id) :: since)).getLast? = some q → q.contains name = true) := by
  obtain ⟨before, since, d, name, horigin⟩ := exists_origin rfl hwrite
  obtain ⟨done, rest, hsplit, -⟩ := horigin.write
  obtain ⟨offer, p, x, y, side', -, hp, hlegs, -, heq⟩ := Delivery.listed_of_mem_writes
    (hsplit ▸ List.mem_append_right done List.mem_cons_self)
  obtain ⟨rfl, rfl, rfl, rfl⟩ := FeedAction.publish.inj heq
  refine ⟨before, since, d, name, p, x, y, horigin, hp, hlegs, rfl, rfl, ?_⟩
  have hlisted : d.pairs.contains name = true := by
    rw [PairDirectory.contains, Table.contains]
    exact Option.isSome_iff_exists.mpr ⟨p, hp⟩
  have hpairs := pairs_run settings ((initial verifier).run settings before)
    (.move (.advance id) :: since)
  rw [← run_append, ← horigin.events] at hpairs
  obtain ⟨-, t, -, rfl⟩ := delivered?_eq_some_iff.mp horigin.delivery
  rw [hpairs]
  cases (((initial verifier).run settings before).installs settings
      (.move (.advance id) :: since)).getLast? with
  | none => exact ⟨fun _ => nofun, fun _ => hlisted⟩
  | some q => simp

theorem performs?_of_written? (es : List Event) (id : TaskId) {b : Book}
    (h : (((initial (.fixed true [])).run .brisk es).machine.performs? id).bind
      (FeedAction.written? baseAddress quoteAddress .bids) = some b) :
    ((initial (.fixed true [])).run .brisk es).machine.performs? id =
      some (.publish baseAddress quoteAddress .bids b) := by
  obtain ⟨a, ha, hwritten⟩ := Option.bind_eq_some_iff.mp h
  rw [ha, FeedAction.written?_eq_some_iff.mp hwritten]

theorem write_listed_iff_opening :
    ∃ behind, ((initial (.fixed true [])).run .brisk (opening.take 16)).machine.todo 2 =
        [] ++ .publish baseAddress quoteAddress .bids firstBid :: behind ∧
      ∃ before since d name p, (initial (.fixed true [])).Origin .brisk (opening.take 16) 2
        (.publish baseAddress quoteAddress .bids firstBid) behind before since d name ∧
          d.pairs.named? name = some p := by
  have hnext : ((initial (.fixed true [])).run .brisk (opening.take 16)).machine.performs? 2 =
      some (.publish baseAddress quoteAddress .bids firstBid) :=
    performs?_of_written? _ 2 (by decide +kernel)
  have hwrite : ((initial (.fixed true [])).run .brisk (opening.take 16)).machine.todo 2 =
      [] ++ .publish baseAddress quoteAddress .bids firstBid :: _ :=
    (performs?_eq_some_iff_todo Settings.brisk.behaviour).mp hnext
  obtain ⟨before, since, d, name, p, x, y, horigin, hp, -⟩ :=
    write_listed_iff .brisk (.fixed true []) hwrite
  exact ⟨_, hwrite, before, since, d, name, p, horigin, hp⟩

def replied (feed : Feed) (body : Json) : String × Except MakerError Json :=
  ((Settings.brisk.feedRequest feed).url, .ok body)

/-- A listing without pairs comes after a reply of prices and before its bid is written. -/
def overtaken : List Event :=
  opening.take 16 ++ .upstream [replied .pairs (.object [("pairs", .object [])])] [] ::
    .call .pairs :: List.replicate 4 (.move (.advance 3))

/-- The pair is listed under another name, and then prices come under that name. -/
def relisted : List Event :=
  opening.take 13 ++ .upstream [
    replied .pairs (.object [("pairs",
      .object [("X/Y", .object [("base", .string "A"), ("quote", .string "B")])])]),
    replied .prices (.object [("prices",
      .object [("X/Y", .object [("bids", .array [.array [.string "1.5", .string "2"]]),
        ("asks", .array [])])])])] [] ::
    .call .pairs :: List.replicate 5 (.move (.advance 3)) ++ List.replicate 3 (.move (.advance 4))

/-- A book is written when no pair is listed any more, and one is written for A and B when the only pair
that is listed has another name. -/
theorem not_listed_at_write :
    (¬ ∀ es id base quote side b, ((initial (.fixed true [])).run .brisk es).machine.performs? id =
        some (.publish base quote side b) →
      ∃ behind before since d name,
        (initial (.fixed true [])).Origin .brisk es id (.publish base quote side b) behind before
          since d name ∧
        ((initial (.fixed true [])).run .brisk es).machine.world.pairs.contains name = true) ∧
    ((initial (.fixed true [])).run .brisk relisted).machine.performs? 4 =
      some (.publish baseAddress quoteAddress .bids firstBid) ∧
    ((initial (.fixed true [])).run .brisk relisted).machine.world.pairs.contains
      (Pair.nameOf "A" "B") = false := by
  refine ⟨fun h => ?_, performs?_of_written? _ 4 (by decide +kernel), by decide +kernel⟩
  have hwrite : ((initial (.fixed true [])).run .brisk overtaken).machine.performs? 2 =
      some (.publish baseAddress quoteAddress .bids firstBid) :=
    performs?_of_written? _ 2 (by decide +kernel)
  obtain ⟨behind, before, since, d, name, -, hlisted⟩ := h _ _ _ _ _ _ hwrite
  have hnone : ((initial (.fixed true [])).run .brisk overtaken).machine.world.pairs.pairs.entries =
      [] := by decide +kernel
  rw [PairDirectory.contains, Table.contains, Table.find?, hnone] at hlisted
  cases hlisted

end Session
end QuoteDesk
