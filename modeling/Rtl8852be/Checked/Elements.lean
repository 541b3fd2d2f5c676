import Rtl8852be.Checked.Reader

/-!
# Elements — chains of tagged elements

An element is a tag, the number of its bytes, and these bytes.  A chain of elements fills a buffer without
anything between or behind them.  Code goes over a chain in one of two ways: `walk` checks that every element
is complete before it looks at it, and `sweep` relies on an earlier `walk`.

* `chain_injective` — a buffer is the chain of one list of elements;
* `Safe.walk` — a walk that comes to its end has visited the elements of a chain, each of them once and in
  order, and has read nothing outside of the buffer;
* `Safe.sweep` — over a chain, `sweep` visits the same elements.
-/

namespace Rtl8852be
namespace Checked

structure Element where
  id : UInt8
  body : List UInt8
  fits : body.length < 256
  deriving DecidableEq

def Element.bytes (e : Element) : List UInt8 := e.id :: UInt8.ofNat e.body.length :: e.body

/-- The bytes of elements that follow each other. -/
def chain (es : List Element) : List UInt8 := es.flatMap Element.bytes

variable {ε σ : Type} {data rest : List UInt8} {e : Element} {es done later : List Element} {pos offset : ℕ}

@[simp] theorem Element.length_bytes (e : Element) : e.bytes.length = e.body.length + 2 := rfl

theorem Element.toNat_length (e : Element) : (UInt8.ofNat e.body.length).toNat = e.body.length :=
  UInt8.toNat_ofNat_of_lt' e.fits

@[simp] theorem chain_nil : chain [] = [] := rfl

@[simp] theorem chain_cons (e : Element) (es : List Element) : chain (e :: es) = e.bytes ++ chain es :=
  List.flatMap_cons

theorem chain_append (es es' : List Element) : chain (es ++ es') = chain es ++ chain es' :=
  List.flatMap_append

/-- The first element of a buffer can be told from its bytes. -/
theorem Element.bytes_append_inj {e' : Element} {rest' : List UInt8}
    (h : e.bytes ++ rest = e'.bytes ++ rest') : e = e' ∧ rest = rest' := by
  rcases e with ⟨id, body, hbody⟩
  rcases e' with ⟨id', body', hbody'⟩
  simp only [Element.bytes, List.cons_append, List.cons.injEq] at h
  rcases h with ⟨hid, hlength, hbytes⟩
  have hcount : body.length = body'.length := by
    have heq := congrArg UInt8.toNat hlength
    rwa [UInt8.toNat_ofNat_of_lt' hbody, UInt8.toNat_ofNat_of_lt' hbody'] at heq
  rcases List.append_inj hbytes hcount with ⟨hsame, hrest⟩
  subst hid hsame
  exact ⟨rfl, hrest⟩

theorem chain_injective {es es' : List Element} (h : chain es = chain es') : es = es' := by
  induction es generalizing es' with
  | nil =>
      cases es' with
      | nil => rfl
      | cons e' es' => exact absurd h.symm (List.cons_ne_nil _ _)
  | cons e es ih =>
      cases es' with
      | nil => exact absurd h (List.cons_ne_nil _ _)
      | cons e' es' =>
          rw [chain_cons, chain_cons] at h
          rcases Element.bytes_append_inj h with ⟨rfl, hrest⟩
          rw [ih hrest]

/-! ## Elements of a buffer -/

/-- The element is in the buffer, its body from this offset on. -/
structure Stands (data : List UInt8) (e : Element) (offset : ℕ) : Prop where
  inside : offset + e.body.length ≤ data.length
  body : e.body = (data.drop offset).take e.body.length
  behind : 2 ≤ offset
  bytes : e.bytes = (data.drop (offset - 2)).take (e.body.length + 2)

theorem Stands.getD (h : Stands data e offset) {i : ℕ} (hi : i < e.body.length) :
    data.getD (offset + i) 0 = e.body.getD i 0 := by
  rw [h.body, List.getD_eq_getElem?_getD, List.getD_eq_getElem?_getD, List.getElem?_take_of_lt hi,
    List.getElem?_drop]

/-- The element whose two first bytes are here, if the buffer is long enough for it. -/
theorem exists_element (hpos : pos + 2 ≤ data.length)
    (hlength : pos + (data.getD (pos + 1) 0).toNat + 2 ≤ data.length) :
    ∃ e : Element, e.id = data.getD pos 0 ∧ e.body.length = (data.getD (pos + 1) 0).toNat ∧
      Stands data e (pos + 2) ∧ data.drop pos = e.bytes ++ data.drop (pos + e.body.length + 2) := by
  have hfits := (data.getD (pos + 1) 0).toNat_lt
  have hget : ∀ i (hi : i < data.length), data.getD i 0 = data[i] := by
    intro i hi
    rw [List.getD_eq_getElem?_getD, List.getElem?_eq_getElem hi, Option.getD_some]
  have hfirst : data.drop pos = data.getD pos 0 :: data.getD (pos + 1) 0 :: data.drop (pos + 2) := by
    rw [List.drop_eq_getElem_cons (by omega), List.drop_eq_getElem_cons (i := pos + 1) (by omega),
      hget pos (by omega), hget (pos + 1) (by omega)]
  -- The body is named before the element is built: its length is also the bound of the element.
  rcases hbody : (data.drop (pos + 2)).take (data.getD (pos + 1) 0).toNat with body
  have hsize : body.length = (data.getD (pos + 1) 0).toNat := by
    rw [← hbody, List.length_take, List.length_drop]
    omega
  have hdrop : data.drop pos =
      data.getD pos 0 :: UInt8.ofNat body.length :: body ++ data.drop (pos + body.length + 2) := by
    have hrest : data.drop (pos + body.length + 2) =
        (data.drop (pos + 2)).drop (data.getD (pos + 1) 0).toNat := by
      rw [List.drop_drop, hsize]
      congr 1
      omega
    rw [hrest, hsize, UInt8.ofNat_toNat, hfirst, ← hbody, List.cons_append, List.cons_append,
      List.take_append_drop]
  refine ⟨⟨data.getD pos 0, body, by omega⟩, rfl, hsize, ⟨?_, ?_, Nat.le_add_left 2 pos, ?_⟩, hdrop⟩
  · show pos + 2 + body.length ≤ data.length
    omega
  · show body = (data.drop (pos + 2)).take body.length
    rw [hsize, hbody]
  · show data.getD pos 0 :: UInt8.ofNat body.length :: body = (data.drop (pos + 2 - 2)).take (body.length + 2)
    rw [Nat.add_sub_cancel, hdrop]
    exact (@List.take_left _ (data.getD pos 0 :: UInt8.ofNat body.length :: body) _).symm

theorem element_of_drop (h : data.drop pos = e.bytes ++ rest) :
    data.getD pos 0 = e.id ∧ (data.getD (pos + 1) 0).toNat = e.body.length ∧ Stands data e (pos + 2) ∧
      data.drop (pos + e.body.length + 2) = rest := by
  have hlength : data.length - pos = e.body.length + 2 + rest.length := by
    have hcount := congrArg List.length h
    rwa [List.length_drop, List.length_append, Element.length_bytes] at hcount
  have hget : ∀ i, data.getD (pos + i) 0 = (e.bytes ++ rest).getD i 0 := by
    intro i
    rw [← h, List.getD_eq_getElem?_getD, List.getD_eq_getElem?_getD, List.getElem?_drop]
  have hid : data.getD pos 0 = e.id := hget 0
  have hsize : (data.getD (pos + 1) 0).toNat = e.body.length := by
    rw [hget 1]
    exact e.toNat_length
  rcases @exists_element data pos (by omega) (by omega) with ⟨e', -, -, hstands, hdrop⟩
  rcases Element.bytes_append_inj (h.symm.trans hdrop) with ⟨rfl, hrest⟩
  exact ⟨hid, hsize, hstands, hrest.symm⟩

/-! ## Going over a buffer -/

/-- A walk over the elements from `pos` on.  It ends early where an element is not complete.  A round passes
at least two bytes; a walk that runs out of rounds would be a loop that does not end. -/
def walk (malformed : ε) (visit : σ → UInt8 → ℕ → ℕ → Reader ε σ) (data : List UInt8) :
    ℕ → ℕ → σ → Reader ε σ
  | 0, _, _ => .error .wrapped
  | rounds + 1, pos, s =>
      if pos < data.length then do
        let left ← sub data.length pos
        if left < 2 then
          early malformed
        else do
          let id ← byteAt data pos
          let length ← byteAt data (pos + 1)
          if left < length.toNat + 2 then
            early malformed
          else do
            let s ← visit s id (pos + 2) length.toNat
            walk malformed visit data rounds (pos + length.toNat + 2) s
      else
        return s

def sweep (visit : σ → UInt8 → ℕ → ℕ → Reader ε σ) (data : List UInt8) : ℕ → ℕ → σ → Reader ε σ
  | 0, _, _ => .error .wrapped
  | rounds + 1, pos, s =>
      if pos < data.length then do
        let id ← byteAt data pos
        let length ← byteAt data (pos + 1)
        let s ← visit s id (pos + 2) length.toNat
        sweep visit data rounds (pos + length.toNat + 2) s
      else
        return s

variable {F : ε → Prop} {malformed : ε} {visit : σ → UInt8 → ℕ → ℕ → Reader ε σ} {rounds : ℕ} {s : σ}

/-- The rule for `walk`.  `I` holds of the elements that have been visited. -/
theorem Safe.walk (I : List Element → σ → Prop) (hmalformed : F malformed)
    (hvisit : ∀ done e offset s, Stands data e offset → I done s →
      Safe F (I (done ++ [e])) (visit s e.id offset e.body.length))
    (hinside : pos ≤ data.length) (hrounds : data.length < pos + rounds) (h : I done s) :
    Safe F (fun s' => ∃ es, data.drop pos = chain es ∧ I (done ++ es) s')
      (Checked.walk malformed visit data rounds pos s) := by
  induction rounds generalizing pos s done with
  | zero => omega
  | succ rounds ih =>
      refine Safe.ite (fun hpos => ?_) fun hend => ?_
      · refine Safe.bind (Safe.sub hinside) fun left hleft => ?_
        subst hleft
        refine Safe.ite (fun _ => Safe.early hmalformed) fun htwo => ?_
        refine Safe.bind (Safe.byteAt hpos) fun id hid => ?_
        refine Safe.bind (Safe.byteAt (by omega)) fun length hlength => ?_
        refine Safe.ite (fun _ => Safe.early hmalformed) fun hcomplete => ?_
        rw [hlength] at hcomplete
        rcases @exists_element data pos (by omega) (by omega) with
          ⟨e, hid', hsize, hstands, hdrop⟩
        rw [hid, hlength, ← hid', ← hsize]
        refine Safe.bind (hvisit done e (pos + 2) s hstands h) fun s' hs' => ?_
        have hin := hstands.inside
        refine Safe.mono (ih (by omega) (by omega) hs') fun final hfinal => ?_
        rcases hfinal with ⟨es, hes, hI⟩
        refine ⟨e :: es, ?_, ?_⟩
        · rw [hdrop, hes, chain_cons]
        · rw [List.append_assoc] at hI
          exact hI
      · refine Safe.pure ⟨[], ?_, ?_⟩
        · exact List.drop_eq_nil_of_le (Nat.not_lt.1 hend)
        · rw [List.append_nil]
          exact h

/-- The rule for `sweep` over a chain. -/
theorem Safe.sweep (I : List Element → σ → Prop) {all : List Element}
    (hvisit : ∀ done e later offset s, done ++ e :: later = all → Stands data e offset → I done s →
      Safe F (I (done ++ [e])) (visit s e.id offset e.body.length))
    (hchain : data.drop pos = chain es) (hall : done ++ es = all)
    (hinside : pos ≤ data.length) (hrounds : data.length < pos + rounds) (h : I done s) :
    Safe F (I all) (Checked.sweep visit data rounds pos s) := by
  induction rounds generalizing pos s done es with
  | zero => omega
  | succ rounds ih =>
      refine Safe.ite (fun hpos => ?_) fun hend => ?_
      · cases es with
        | nil =>
            have hnil := congrArg List.length hchain
            rw [List.length_drop, chain_nil, List.length_nil] at hnil
            omega
        | cons e es =>
            rw [chain_cons] at hchain
            rcases element_of_drop hchain with ⟨hid, hsize, hstands, hrest⟩
            have hin := hstands.inside
            refine Safe.bind (Safe.byteAt hpos) fun id hread => ?_
            refine Safe.bind (Safe.byteAt (by omega)) fun length hlength => ?_
            rw [hread, hlength, hid, hsize]
            refine Safe.bind (hvisit done e es (pos + 2) s hall hstands h) fun s' hs' => ?_
            refine ih hrest ?_ (by omega) (by omega) hs'
            rw [List.append_assoc]
            exact hall
      · have hnil : es = [] := by
          refine chain_injective ?_
          rw [← hchain, List.drop_eq_nil_of_le (Nat.not_lt.1 hend), chain_nil]
        rw [hnil, List.append_nil] at hall
        exact Safe.pure (hall ▸ h)

end Checked
end Rtl8852be
