import Biotope.Gene.Shape
import Biotope.Proofs.Documents

/-!
# Shapes as texts

The document of a shape can be read back, so creatures have the same document exactly
if they differ in nothing but the values of their probabilities. All that the
fingerprint adds to this is the collisions of the checksum.
-/

namespace Biotope

open Json (Value)

/-! ## Texts -/

namespace Json

/-- A value that can be written is known by its text. -/
theorem write_inj {v w : Value} (hv : v.Writable) (hw : w.Writable) (h : v.write [] = w.write []) :
    v = w := by
  have hread : (read v.text).root.value = v := (read_text hv).1.value_eq
  have htext : v.text = w.text := congrArg String.ofList h
  rw [← hread, htext]
  exact (read_text hw).1.value_eq

theorem utf8_inj {cs ds : List Char}
    (h : cs.flatMap String.utf8EncodeChar = ds.flatMap String.utf8EncodeChar) : cs = ds := by
  have hbytes : (String.ofList cs).toByteArray = (String.ofList ds).toByteArray :=
    List.toByteArray_inj.mpr h
  exact String.ofList_injective (String.toByteArray_inj.mp hbytes)

end Json

namespace Gene

/-! ## Shapes -/

mutual

/-- Equal but for the values of probabilities: opcode by opcode, child by child and item
by item. -/
inductive Alike : Gene → Gene → Prop
  | branch (p q : Probability) {l l' r r' : Option Gene} :
      AlikeSlot l l' → AlikeSlot r r' → Alike (.branch p l r) (.branch q l' r')
  | chop (p q : Probability) : Alike (.chop p) (.chop q)
  | copy (p q : Probability) : Alike (.copy p) (.copy q)
  | get {t t' : Option Gene} : AlikeSlot t t' → Alike (.get t) (.get t')
  | merge : Alike .merge .merge
  | mutate (p q : Probability) : Alike (.mutate p) (.mutate q)
  | put : Alike .put .put
  | sequence {gs hs : List Gene} : AlikeAll gs hs → Alike (.sequence gs) (.sequence hs)

inductive AlikeSlot : Option Gene → Option Gene → Prop
  | none : AlikeSlot none none
  | some {g h : Gene} : Alike g h → AlikeSlot (some g) (some h)

inductive AlikeAll : List Gene → List Gene → Prop
  | nil : AlikeAll [] []
  | cons {g h : Gene} {gs hs : List Gene} :
      Alike g h → AlikeAll gs hs → AlikeAll (g :: gs) (h :: hs)

end

theorem shape_ne_null (g : Gene) : g.shape ≠ .null := by
  cases g <;> simp [shape]

mutual

theorem Alike.shape_eq {g h : Gene} : Alike g h → g.shape = h.shape
  | .branch _ _ hl hr => by rw [shape, shape, hl.shape_eq, hr.shape_eq]
  | .chop .. | .copy .. | .merge | .mutate .. | .put => rfl
  | .get ht => by rw [shape, shape, ht.shape_eq]
  | .sequence hs => by rw [shape, shape, hs.shape_eq]

theorem AlikeSlot.shape_eq {s t : Option Gene} : AlikeSlot s t → shapeSlot s = shapeSlot t
  | .none => rfl
  | .some h => h.shape_eq

theorem AlikeAll.shape_eq {gs hs : List Gene} : AlikeAll gs hs → shapeAll gs = shapeAll hs
  | .nil => rfl
  | .cons h hs => by rw [shapeAll, shapeAll, h.shape_eq, hs.shape_eq]

end

mutual

theorem alike_of_shape_eq : ∀ {g h : Gene}, g.shape = h.shape → Alike g h
  | .branch p l r, h, e => by
    cases h with
    | branch q l' r' =>
      simp only [shape, Value.object.injEq, List.cons.injEq, Prod.mk.injEq, true_and, and_true] at e
      exact .branch p q (alike_of_shapeSlot_eq e.1) (alike_of_shapeSlot_eq e.2)
    | _ => simp [shape] at e
  | .chop p, h, e => by
    cases h with
    | chop q => exact .chop p q
    | _ => simp [shape] at e
  | .copy p, h, e => by
    cases h with
    | copy q => exact .copy p q
    | _ => simp [shape] at e
  | .get t, h, e => by
    cases h with
    | get t' =>
      simp only [shape, Value.object.injEq, List.cons.injEq, Prod.mk.injEq, true_and, and_true] at e
      exact .get (alike_of_shapeSlot_eq e)
    | _ => simp [shape] at e
  | .merge, h, e => by
    cases h with
    | merge => exact .merge
    | _ => simp [shape] at e
  | .mutate p, h, e => by
    cases h with
    | mutate q => exact .mutate p q
    | _ => simp [shape] at e
  | .put, h, e => by
    cases h with
    | put => exact .put
    | _ => simp [shape] at e
  | .sequence gs, h, e => by
    cases h with
    | sequence hs =>
      simp only [shape, Value.object.injEq, Value.array.injEq, List.cons.injEq, Prod.mk.injEq,
        true_and, and_true] at e
      exact .sequence (alike_of_shapeAll_eq e)
    | _ => simp [shape] at e

theorem alike_of_shapeSlot_eq : ∀ {s t : Option Gene}, shapeSlot s = shapeSlot t → AlikeSlot s t
  | none, none, _ => .none
  | none, some h, e => absurd e.symm h.shape_ne_null
  | some g, none, e => absurd e g.shape_ne_null
  | some _, some _, e => .some (alike_of_shape_eq e)

theorem alike_of_shapeAll_eq : ∀ {gs hs : List Gene}, shapeAll gs = shapeAll hs → AlikeAll gs hs
  | [], [], _ => .nil
  | [], _ :: _, e => by cases e
  | _ :: _, [], e => by cases e
  | _ :: _, _ :: _, e => .cons (alike_of_shape_eq (List.cons.inj e).1) (alike_of_shapeAll_eq (List.cons.inj e).2)

end

/-! ## Documents -/

mutual

theorem shape_writable : ∀ g : Gene, g.shape.Writable
  | branch _ left right =>
    ⟨trivial, trivial, shapeSlot_writable left, shapeSlot_writable right, trivial⟩
  | chop _ | copy _ | mutate _ => ⟨trivial, trivial, trivial⟩
  | get template => ⟨trivial, shapeSlot_writable template, trivial⟩
  | merge | put => ⟨trivial, trivial⟩
  | sequence genes => ⟨trivial, shapeAll_writable genes, trivial⟩

theorem shapeSlot_writable : ∀ s : Option Gene, (shapeSlot s).Writable
  | none => trivial
  | some g => shape_writable g

theorem shapeAll_writable : ∀ gs : List Gene, Json.AllWritable (shapeAll gs)
  | [] => trivial
  | g :: gs => ⟨shape_writable g, shapeAll_writable gs⟩

end

theorem alike_of_encoding_eq {g h : Gene} (e : g.encoding = h.encoding) : Alike g h :=
  alike_of_shape_eq (Json.write_inj g.shape_writable h.shape_writable (Json.utf8_inj e))

theorem Alike.encoding_eq {g h : Gene} (a : Alike g h) : g.encoding = h.encoding := by
  rw [encoding, a.shape_eq, encoding]

end Gene

/-! ## Fingerprints -/

/-- Different documents that share a fingerprint: their checksums are equal, or they are zero
and the one that stands in for it. -/
def Checksum.Collides (xs ys : List UInt8) : Prop :=
  xs ≠ ys ∧ (crc32 xs = crc32 ys ∨ crc32 xs = 0 ∧ crc32 ys = 1 ∨ crc32 xs = 1 ∧ crc32 ys = 0)

theorem SpeciesId.ofHash_eq_iff {h k : UInt32} :
    ofHash h = ofHash k ↔ h = k ∨ h = 0 ∧ k = 1 ∨ h = 1 ∧ k = 0 := by
  unfold ofHash
  split <;> split <;> simp_all [eq_comm]

/-- A checksum that is worked out with every byte. The match asks for its value before the
next byte is read, so that a long document can be evaluated. -/
def Checksum.forced : List UInt8 → Nat → Nat
  | [], c => c
  | b :: bs, 0 => forced bs (step 0 b).toNat
  | b :: bs, c + 1 => forced bs (step (.ofNat (c + 1)) b).toNat

theorem Checksum.forced_eq : ∀ (bs : List UInt8) (c : UInt32),
    forced bs c.toNat = (bs.foldl step c).toNat
  | [], _ => by rw [forced, List.foldl_nil]
  | b :: bs, c => by
    rw [List.foldl_cons, ← forced_eq bs]
    have hc : UInt32.ofNat c.toNat = c := UInt32.ofNat_toNat
    cases hn : c.toNat with
    | zero => rw [forced, ← hc, hn]; rfl
    | succ n => rw [forced, ← hn, hc]

namespace Gene

theorem species_forced (g : Gene) :
    g.species = .ofHash (.ofNat (Checksum.forced g.encoding 0xFFFFFFFF) ^^^ 0xFFFFFFFF) := by
  have h := Checksum.forced_eq g.encoding 0xFFFFFFFF
  rw [show (0xFFFFFFFF : UInt32).toNat = 0xFFFFFFFF from rfl] at h
  rw [h, UInt32.ofNat_toNat]
  rfl

theorem species_eq_iff {g h : Gene} :
    g.species = h.species ↔ g.encoding = h.encoding ∨ Checksum.Collides g.encoding h.encoding := by
  rw [species, species, SpeciesId.ofHash_eq_iff, Checksum.Collides]
  by_cases e : g.encoding = h.encoding
  · simp [e]
  · simp [e]

/-- The document of a creature tells its shape and nothing else, so creatures of one species
are alike or their documents collide. No species is the one that asks for any. -/
theorem species_tells_shape (g h : Gene) :
    (g.encoding = h.encoding ↔ Alike g h) ∧
    (g.species = h.species ↔ Alike g h ∨ Checksum.Collides g.encoding h.encoding) ∧
    g.species ≠ .any := by
  have hshape : g.encoding = h.encoding ↔ Alike g h := ⟨alike_of_encoding_eq, Alike.encoding_eq⟩
  refine ⟨hshape, ?_, SpeciesId.ofHash_ne_any _⟩
  rw [species_eq_iff, hshape]

end Gene

end Biotope
