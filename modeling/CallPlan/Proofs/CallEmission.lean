/-
Equal calls emit the same instruction.

Special calls are compared by data: the name of the type they are made on, and the name, the parameters and the result
of the method. What they emit is text, with a mark that the pool of the type decides. The two come to the same for
descriptors that were read, because such a descriptor is told from all others by its text (`render_inj`), and for types
of one pool, because a pool has one declaration for a name (`eq_of_pool_eq`).

- `runAt_call_legal`, `runAt_call_illegal`: what a call does at a site;
- `emittedAt_eq_iff`: when two calls emit the same;
- `equal_calls_emit_alike`: equality of calls is equality of what they emit.
-/
import CallPlan.Proofs.DescriptorText
import CallPlan.Proofs.Nesting

namespace CallPlan

/-! ## What tells calls apart -/

/-- descriptors that were read are told apart by their text -/
theorem MethodDescriptor.render_inj {d e : MethodDescriptor} (hd : d.WellNamed) (he : e.WellNamed) :
    d.render = e.render ↔ d = e := by
  constructor
  · intro h
    have hfirst : parse d.render = .ok d := parse_eq_ok_iff.2 ⟨hd, rfl⟩
    have hsecond : parse d.render = .ok e := parse_eq_ok_iff.2 ⟨he, h⟩
    exact Except.ok.inj (hfirst.symm.trans hsecond)
  · exact congrArg render

namespace Method

variable {m n : Method}

/-- the descriptor was read from a text -/
def IsRead (m : Method) : Prop := ∃ text, MethodDescriptor.parse text = .ok m.descriptor

theorem IsRead.wellNamed (h : m.IsRead) : m.descriptor.WellNamed := by
  obtain ⟨text, hparse⟩ := h
  exact (MethodDescriptor.parse_eq_ok_iff.1 hparse).1

theorem token_eq_iff : m.token = n.token ↔ m.name = n.name ∧ m.descriptor = n.descriptor := by
  obtain ⟨-, -, -, ⟨ps, r⟩, -⟩ := m
  obtain ⟨-, -, -, ⟨qs, r'⟩, -⟩ := n
  simp only [token, parameters, result, MethodToken.mk.injEq, MethodDescriptor.mk.injEq]
  exact and_congr_right fun _ => and_comm

end Method

/-- a pool has one declaration for a name -/
theorem KnownType.eq_of_pool_eq {t u : KnownType} (hpool : t.pool = u.pool) (hname : t.name = u.name) : t = u := by
  obtain ⟨p, d, hd⟩ := t
  obtain ⟨q, e, he⟩ := u
  obtain rfl : p = q := hpool
  have hsame : d.name = e.name := hname
  obtain rfl : d = e := Option.some.inj (hd.symm.trans (hsame ▸ he))
  rfl

/-! ## What a call emits -/

namespace SpecialCall

variable {α : Type} [Auxiliary α] {m n : Method} {t u : KnownType} {c d : SpecialCall} {s : Site α}

/-- at every site the call succeeds with this effect on the stack, after this one instruction and nothing else -/
def Emits (α : Type) [Auxiliary α] (c : SpecialCall) (i : Instruction) (effect : StackEffect) : Prop :=
  ∀ s : Site α, (Emission.call c).runAt s = (.ok effect, { s with emitted := s.emitted ++ [i] })

/-- everything that has been emitted once the call was made at this site -/
def emittedAt (s : Site α) (c : SpecialCall) : List Instruction := ((Emission.call c).runAt s).2.emitted

theorem runAt_call_legal (m : Method) (t : KnownType) :
    Emits α (.legal m t) (.call Opcode.invokeSpecial t.name m.name m.descriptor.render t.isInterface)
      (.ofImpact (m.result.slots - (m.descriptor.parameterSlots + 1))) := fun _ => rfl

theorem runAt_call_illegal (s : Site α) :
    (Emission.call .illegal).runAt s = (.error (.illegalCall .emission), s) := rfl

theorem emittedAt_legal (s : Site α) (m : Method) (t : KnownType) : emittedAt s (.legal m t) =
    s.emitted ++ [.call Opcode.invokeSpecial t.name m.name m.descriptor.render t.isInterface] := rfl

/-- **Two calls emit the same** iff they name one type, one method name and one descriptor text, on types that are
both interfaces or both not. -/
theorem emittedAt_eq_iff : emittedAt s (.legal m t) = emittedAt s (.legal n u) ↔
    t.name = u.name ∧ m.name = n.name ∧ m.descriptor.render = n.descriptor.render ∧ t.isInterface = u.isInterface := by
  rw [emittedAt_legal, emittedAt_legal, List.append_cancel_left_eq, List.singleton_inj, Instruction.call.injEq]
  exact and_iff_right rfl

theorem key_eq_none_iff : c.key = none ↔ c = illegal := by
  cases c <;> simp [key]

/-- an illegal call equals illegal calls only -/
theorem beq_illegal_iff : (c == illegal) = true ↔ c = illegal := (beq_iff_key_eq c illegal).trans key_eq_none_iff

theorem illegal_beq_iff : (illegal == c) = true ↔ c = illegal :=
  (beq_iff_key_eq illegal c).trans (eq_comm.trans key_eq_none_iff)

/-- **Equal calls end alike**, whatever the pools of their types and whoever declares their methods. -/
theorem outcome_eq_of_beq (h : (c == d) = true) (s : Site α) :
    ((Emission.call c).runAt s).1 = ((Emission.call d).runAt s).1 := by
  cases c with
  | illegal => rw [illegal_beq_iff.1 h]
  | legal m t =>
    cases d with
    | illegal => exact absurd (beq_illegal_iff.1 h) (by simp)
    | legal n u =>
      obtain ⟨-, hdescriptor⟩ := Method.token_eq_iff.1 (legal_beq_legal.1 h).2
      rw [runAt_call_legal m t s, runAt_call_legal n u s, Method.result, Method.result, hdescriptor]

/-! ## Main result -/

/-- **Equality of calls is equality of what they emit.** A legal call emits one instruction, after which the stack has
the slots of the result in place of those of the parameters and the receiver, and reaches no higher than where it starts
or ends. Two legal calls of methods whose descriptors were read, on types of one pool, are equal iff they emit the same,
at whatever site. Equal calls have the same effect; declaring types and flags play no part. An illegal call equals
illegal calls only, fails and emits nothing. -/
theorem equal_calls_emit_alike :
    (∀ (m : Method) (t : KnownType), Emits α (.legal m t)
      (.call Opcode.invokeSpecial t.name m.name m.descriptor.render t.isInterface)
      ⟨m.result.slots - m.descriptor.parameterSlots - 1,
        ((m.result.slots : Int) - m.descriptor.parameterSlots - 1).toNat⟩) ∧
    (∀ (m n : Method) (t u : KnownType), m.IsRead → n.IsRead → t.pool = u.pool → ∀ s : Site α,
      (legal m t == legal n u) = true ↔ emittedAt s (.legal m t) = emittedAt s (.legal n u)) ∧
    (∀ (c d : SpecialCall), (c == d) = true → ∀ s : Site α,
      ((Emission.call c).runAt s).1 = ((Emission.call d).runAt s).1) ∧
    (∀ c : SpecialCall, ((c == illegal) = true ↔ c = illegal) ∧ ((illegal == c) = true ↔ c = illegal)) ∧
    ∀ s : Site α, (Emission.call .illegal).runAt s = (.error (.illegalCall .emission), s) := by
  refine ⟨fun m t => ?_, fun m n t u hm hn hpool s => ?_, fun c d h => outcome_eq_of_beq h,
    fun c => ⟨beq_illegal_iff, illegal_beq_iff⟩, runAt_call_illegal⟩
  · have himpact : (m.result.slots : Int) - m.descriptor.parameterSlots - 1 =
        m.result.slots - (m.descriptor.parameterSlots + 1) := by omega
    rw [himpact]
    exact runAt_call_legal m t
  · rw [legal_beq_legal, emittedAt_eq_iff, Method.token_eq_iff, MethodDescriptor.render_inj hm.wellNamed hn.wellNamed]
    constructor
    · rintro ⟨hname, hmethod, hdescriptor⟩
      exact ⟨hname, hmethod, hdescriptor, by rw [KnownType.eq_of_pool_eq hpool hname]⟩
    · rintro ⟨hname, hmethod, hdescriptor, -⟩
      exact ⟨hname, hmethod, hdescriptor⟩

/-- a public class member and an interface member without flags, of one name and one descriptor -/
def runOfClass : Method := ⟨"fixture/A", false, "run", ⟨[.base .int, .base .long], .void⟩, .publicBit⟩

def runOfInterface : Method := ⟨"fixture/B", true, "run", ⟨[.base .int, .base .long], .void⟩, ⟨0⟩⟩

/-- who declares a method does not matter to a call, the type that it is made on does -/
theorem runs_emit_alike : ∃ pool t u s, Samples.sources = .ok pool ∧ pool.type? Samples.readerName = some t ∧
    pool.type? Samples.textSourceName = some u ∧ runOfClass.IsRead ∧ runOfInterface.IsRead ∧
    (legal runOfClass t == legal runOfInterface t) = true ∧ (legal runOfClass t == legal runOfClass u) = false ∧
    emittedAt (α := Samples.SampleAuxiliary) s (.legal runOfClass t) =
      [.call Opcode.invokeSpecial Samples.readerName "run" "(IJ)V" false] ∧
    (Emission.call (.legal runOfClass t)).runAt s = (.ok ⟨-4, 0⟩, { s with emitted := s.emitted ++
      [.call Opcode.invokeSpecial Samples.readerName "run" "(IJ)V" false] }) := by
  obtain ⟨pool, hpool, htest⟩ := exists_ok_of_any (x := Samples.sources)
    (f := fun pool => (pool.type? Samples.readerName).any fun t => (pool.type? Samples.textSourceName).any fun u =>
      t.name == Samples.readerName && !t.isInterface && u.name == Samples.textSourceName) (by decide +kernel)
  simp only [Option.any_eq_true, Bool.and_eq_true, Bool.not_eq_true', beq_iff_eq] at htest
  obtain ⟨t, ht, u, hu, ⟨htname, hclass⟩, huname⟩ := htest
  have hread : runOfClass.IsRead ∧ runOfInterface.IsRead := ⟨⟨"(IJ)V", by cbv⟩, ⟨"(IJ)V", by cbv⟩⟩
  obtain ⟨hemits, hequal, -⟩ := equal_calls_emit_alike (α := Samples.SampleAuxiliary)
  have hcall : Emits Samples.SampleAuxiliary (.legal runOfClass t)
      (.call Opcode.invokeSpecial Samples.readerName "run" "(IJ)V" false) ⟨-4, 0⟩ := by
    have := hemits runOfClass t
    rw [htname, hclass] at this
    exact this
  let s : Site Samples.SampleAuxiliary := ⟨[], .empty t Registry.defaultSuffix⟩
  refine ⟨pool, t, u, s, hpool, ht, hu, hread.1, hread.2, ?_, ?_, ?_, hcall s⟩
  · exact (hequal _ _ t t hread.1 hread.2 rfl s).2 rfl
  · have hpools : t.pool = u.pool := (Pool.type?_eq_some_iff.1 ht).1.trans (Pool.type?_eq_some_iff.1 hu).1.symm
    rw [← Bool.not_eq_true, hequal _ _ t u hread.1 hread.1 hpools s, emittedAt_eq_iff, htname, huname]
    exact fun h => absurd h.1 (by decide)
  · rw [emittedAt, hcall s]
    rfl

end SpecialCall

end CallPlan
