import GoFabric.Impl.Aesccm

/-!
# Counter with CBC-MAC, as RFC 3610 formats it

With an 8·2-bit length field and a 16-byte tag: the blocks `B_0`, `B_1`, … of
the MAC (`macBlocks`), and the counter blocks `A_0`, `A_1`, … of the
keystream (`counterBlock`). Data shorter than a block is padded with zeros
(`padBlocks`).
-/

namespace GF.Spec.Ccm

open GF.Impl.Aesccm (Block xorBlock toBlock)

/-- Data as 16-byte blocks, the last one padded with zeros. -/
def padBlocks (data : List Byte) : List Block :=
  (List.range ((data.length + 15) / 16)).map fun k => toBlock (data.drop (16 * k))

/-- The flags byte of `B_0`: `64 * Adata + 8 * M' + L'` with `M' = 7` and
`L' = 1`. -/
def macFlags (adata : Bool) : Byte := BitVec.ofNat 8 (64 * adata.toNat + 8 * 7 + 1)

/-- `B_0`: flags, nonce, length of the message. -/
def b0 (nonce aad p : List Byte) : Block :=
  toBlock ([macFlags (!aad.isEmpty)] ++ nonce ++ beBytes 2 p.length)

/-- The additional data, behind its length in two octets; nothing when there
is none. -/
def aadBlocks (aad : List Byte) : List Block :=
  if aad = [] then [] else padBlocks (beBytes 2 aad.length ++ aad)

/-- The blocks the MAC is computed over. -/
def macBlocks (nonce aad p : List Byte) : List Block :=
  b0 nonce aad p :: (aadBlocks aad ++ padBlocks p)

/-- CBC-MAC: from the zero block, each block added and enciphered. -/
def cbcMac (E : Block → Block) (bs : List Block) : Block :=
  bs.foldl (fun x b => E (xorBlock x b)) (toBlock [])

/-- `A_i`: flags `L'`, nonce, counter. -/
def counterBlock (nonce : List Byte) (i : Nat) : Block := toBlock ([1#8] ++ nonce ++ beBytes 2 i)

/-- The counter blocks of the keystream for `n` bytes: `A_1`, `A_2`, … -/
def counterBlocks (nonce : List Byte) (n : Nat) : List Block :=
  (List.range ((n + 15) / 16)).map fun k => counterBlock nonce (k + 1)

/-- The keystream for `n` bytes. -/
def keystream (E : Block → Block) (nonce : List Byte) (n : Nat) : List Byte :=
  (counterBlocks nonce n).flatMap fun a => (E a).toList

end GF.Spec.Ccm
