import ProcessorBench.Proofs.Service.Request
import ProcessorBench.Proofs.Table

/-!
# What a request depends on

What a request answers, what it leaves under its identifier and what it does to the world depends
on nothing in the registry but the registration under that identifier, and under the others nothing
changes.

* `Registry.Request.get?_perform_of_ne` — what stands under other identifiers stays.
* `Registry.SameAt`, `Registry.Request.perform_congr` — a request cannot tell apart two registries
  that agree on its identifier.
-/

set_option autoImplicit false

namespace ProcessorBench

namespace Registry

variable {υ : Type} {r r' : Registry υ} {identifier : Text}

/-! ## What stands under other identifiers -/

theorem get?_put (r : Registry υ) (identifier j : Text) (g : Registration υ) :
    (r.put identifier g).registrations.get? j =
      if j = identifier then some g else r.registrations.get? j :=
  Table.get?_insert _ _ _ _

theorem get?_settle_of_ne {j : Text} (hj : j ≠ identifier) (g : Registration υ) (succeeded : Bool)
    (phase : Phase) :
    (r.settle identifier g succeeded phase).registrations.get? j = r.registrations.get? j := by
  have hput : ∀ g, (r.put identifier g).registrations.get? j = r.registrations.get? j := by
    intro g
    rw [get?_put, if_neg hj]
  have herase : (r.registrations.erase identifier).get? j = r.registrations.get? j := by
    rw [Table.get?_erase, if_neg hj]
  unfold settle
  cases phase <;> cases succeeded <;> first | rfl | exact hput _ | exact herase

/-- A request leaves what stands under other identifiers. -/
theorem Request.get?_perform_of_ne (q : Request υ) (r : Registry υ) (w : World υ) {j : Text}
    (hj : j ≠ q.identifier) :
    (q.perform r w).2.1.registrations.get? j = r.registrations.get? j := by
  have hcourse := q.course r w
  generalize q.fires? r w.user = due at hcourse
  generalize q.perform r w = x at hcourse
  cases hcourse with
  | quiet user fails => rfl
  | configures plain found disabled user => rw [get?_put, if_neg hj]
  | fires due found fresh user agrees hooks => exact get?_settle_of_ne hj _ _ _

/-! ## What a request depends on -/

/-- Two results that differ at most in what stands under other identifiers. -/
def SameAt {α : Type} (identifier : Text) (x y : Except Error α × Registry υ × World υ) : Prop :=
  x.1 = y.1 ∧ x.2.1.registrations.get? identifier = y.2.1.registrations.get? identifier ∧
    x.2.2 = y.2.2

theorem sameAt_put {α : Type} (answer : Except Error α) (g : Registration υ) (w : World υ) :
    SameAt identifier (answer, r.put identifier g, w) (answer, r'.put identifier g, w) := by
  refine ⟨rfl, ?_, rfl⟩
  rw [get?_put, get?_put, if_pos rfl, if_pos rfl]

section Congruence

variable (h : r.registrations.get? identifier = r'.registrations.get? identifier)
include h

theorem sameAt_unchanged {α : Type} (answer : Except Error α) (w : World υ) :
    SameAt identifier (answer, r, w) (answer, r', w) := ⟨rfl, h, rfl⟩

theorem demand_congr (w : World υ) : r.demand identifier w = r'.demand identifier w := by
  unfold demand
  rw [h]

theorem demandDisabled_congr (change : Error.Change) (w : World υ) :
    r.demandDisabled identifier change w = r'.demandDisabled identifier change w := by
  unfold demandDisabled
  rw [demand_congr h]

theorem enable_congr (w : World υ) :
    SameAt identifier (r.enable identifier w) (r'.enable identifier w) := by
  unfold enable
  rw [demand_congr h]
  rcases r'.demand identifier w with ⟨e | g, w⟩
  · exact sameAt_unchanged h _ w
  · dsimp only
    split
    · exact sameAt_unchanged h _ _
    · rcases g.fire identifier .enabled _ with ⟨e | _, w⟩
      · exact sameAt_unchanged h _ w
      · exact sameAt_put _ _ w

theorem disable_congr (w : World υ) :
    SameAt identifier (r.disable identifier w) (r'.disable identifier w) := by
  unfold disable
  rw [demand_congr h]
  rcases r'.demand identifier w with ⟨e | g, w⟩
  · exact sameAt_unchanged h _ w
  · dsimp only
    split
    · exact sameAt_unchanged h _ _
    · exact sameAt_put _ _ _

theorem remove_congr (w : World υ) :
    SameAt identifier (r.remove identifier w) (r'.remove identifier w) := by
  unfold remove
  rw [demand_congr h]
  rcases r'.demand identifier w with ⟨e | g, w⟩
  · exact sameAt_unchanged h _ w
  · dsimp only
    split
    · exact sameAt_unchanged h _ _
    · rcases g.fire identifier .removed _ with ⟨e | _, w⟩
      · exact sameAt_unchanged h _ w
      · refine ⟨rfl, ?_, rfl⟩
        rw [Table.get?_erase, Table.get?_erase, if_pos rfl, if_pos rfl]

theorem setProperty_congr (d : Descriptor) (value : Text) (w : World υ) :
    SameAt identifier (r.setProperty identifier d value w)
      (r'.setProperty identifier d value w) := by
  unfold setProperty
  rw [demandDisabled_congr h]
  rcases r'.demandDisabled identifier .setProperty w with ⟨e | g, w⟩
  · exact sameAt_unchanged h _ w
  · exact sameAt_put _ _ _

theorem setPropertyByName_congr (name value : Text) (w : World υ) :
    SameAt identifier (r.setPropertyByName identifier name value w)
      (r'.setPropertyByName identifier name value w) := by
  unfold setPropertyByName
  rw [demandDisabled_congr h]
  rcases r'.demandDisabled identifier .setProperty w with ⟨e | g, w⟩
  · exact sameAt_unchanged h _ w
  · dsimp only
    rcases g.service.configurable.descriptor? name with e | _ | d
    · exact sameAt_unchanged h _ w
    · exact sameAt_unchanged h _ w
    · exact setProperty_congr h d value w

theorem removeProperty_congr (name : Text) (w : World υ) :
    SameAt identifier (r.removeProperty identifier name w)
      (r'.removeProperty identifier name w) := by
  unfold removeProperty
  rw [demandDisabled_congr h]
  rcases r'.demandDisabled identifier .removeProperty w with ⟨e | g, w⟩
  · exact sameAt_unchanged h _ w
  · exact sameAt_put _ _ _

theorem annotate_congr (annotationData : Option Text) (w : World υ) :
    SameAt identifier (r.annotate identifier annotationData w)
      (r'.annotate identifier annotationData w) := by
  unfold annotate
  rw [demandDisabled_congr h]
  rcases r'.demandDisabled identifier .setAnnotationData w with ⟨e | g, w⟩
  · exact sameAt_unchanged h _ w
  · exact sameAt_put _ _ _

theorem register_congr (service : Service υ) (target : Target Configuration.signature υ)
    (values : Table Text Text) (w : World υ) :
    SameAt identifier (r.register identifier service target values w)
      (r'.register identifier service target values w) := by
  have hcontains : r.contains identifier = r'.contains identifier := congrArg Option.isSome h
  unfold register
  rw [hcontains]
  split
  · exact sameAt_unchanged h _ _
  · dsimp only
    rcases service.startUnder identifier _ with ⟨e | _, user⟩
    · dsimp only
      split <;> exact sameAt_unchanged h _ _
    · rcases service.settings values.entries {} with e | name | settings
      · exact sameAt_unchanged h _ _
      · exact sameAt_unchanged h _ _
      · dsimp only
        generalize Registration.fire _ identifier .added _ = answer
        obtain ⟨e | _, w'⟩ := answer
        · cases e <;> exact sameAt_unchanged h _ _
        · exact sameAt_put _ _ _

theorem add_congr (service : Option (Service υ)) (declared : Component Configuration.signature υ)
    (values : Table Text Text) (w : World υ) :
    SameAt identifier (r.add identifier service declared values w)
      (r'.add identifier service declared values w) := by
  unfold add
  cases service with
  | none => exact sameAt_unchanged h _ w
  | some service =>
    dsimp only
    cases Target.bind declared (some service.typeName) with
    | error e => exact sameAt_unchanged h _ w
    | ok target => exact register_congr h service target values w

end Congruence

theorem SameAt.plain {α : Type} {x y : Except Error α × Registry υ × World υ}
    (h : SameAt identifier x y) :
    SameAt identifier (Request.perform.plain x) (Request.perform.plain y) :=
  ⟨congrArg (Except.map fun _ => ()) h.1, h.2⟩

/-- A request depends on the registration under its identifier alone. -/
theorem Request.perform_congr (q : Request υ)
    (h : r.registrations.get? q.identifier = r'.registrations.get? q.identifier) (w : World υ) :
    SameAt q.identifier (q.perform r w) (q.perform r' w) := by
  cases q with
  | add identifier service declared values => exact add_congr h service declared values w
  | enable identifier => exact enable_congr h w
  | disable identifier => exact disable_congr h w
  | remove identifier => exact remove_congr h w
  | setProperty identifier d value => exact (setProperty_congr h d value w).plain
  | setPropertyByName identifier name value =>
    exact (setPropertyByName_congr h name value w).plain
  | removeProperty identifier name => exact (removeProperty_congr h name w).plain
  | annotate identifier annotationData => exact annotate_congr h annotationData w

end Registry

end ProcessorBench
