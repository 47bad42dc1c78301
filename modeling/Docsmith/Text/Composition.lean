/-
Compatible composition of characters, which gives every spelling of an identifier one form.

A text is decomposed into compatible characters, marks on a letter are put in the order of their
classes, and letters and marks that make up one character are composed again. The tables hold the
characters that can stand in an identifier; syllables of Hangul follow a rule.
-/
import Docsmith.Text.Cut
import Docsmith.Text.Packed

namespace Docsmith.Text

/-- What characters are compatible to, those aside that are composed of two. An entry is a character
and its decomposition, each code point as a hexadecimal number: how far it is from the one that
stood last in its place. -/
def decompositionTable : Packed := ⟨19599, "
 yW&5+.rWN6P$m]UeB$Yk6oFJ]x7<4S_:>N&96ne<T(PQ<o(:3ip2Oe#DX?%%q:YD8u~RiEM#fhEvt;#xL4ms$hvzrt<^vf@e&EJ
 r85~gDa*v|H4>v_<Va%jQg3EMyaLV~xgq&ggQT)JgMEY^cC^fcQg6nps4QTm$n3kIcjUwGlW#7kbwiFXx@ZmuuYD5J|re)VZ3>)
 MD$n[mW0i*M2?cyYdC|OGtv&UiFY(t$k@II_#1?7nl|=P%pwc5CXv2hK0zy;B:9@a35oA.PCNWCIQ1?.0RD|~&&*QY_iWAo=8Kf
 II$avC23_e]yC#mtEpK:=F@$k>lPvBKLqXPK)yK)v<N4OG?[D0=$z|yx6nBAfl[OsF9~fckXJQtUiOriyQP7DuGRwez:obX*2[9
 TStJJ?SP,!d2cMR8~R[):YYm6*Yw@lec?5]Y6~M@BCk$bFW~Iro^L)M0ie]KDv4,deCD%32Rw$1<7fR#m;P.J(?7|u*L$FH(sJ;
 pVm9%4M8<Jh%NC#mGxs4E>EIbH~Kq)3vlMsV%2<xB9<^P@@x0p+k7R3zZ0KZ=ySW]2Ufk91l,L]>LPgdSRrin_Ti?*~f@|ZJqA0
 (<:r:di#O#|i<z@P9u!kF0H]ErQGmDd$)_Csj|sv|vDe8.u^GZUI?hjTFnCiR_53S27J72N+u1u[HyOf<giI)]NQ?nq==*NjY@x
 nULA:kd[o$,g;.>m_yEu*%930C14XMD7#0~]3r#ToxEEhRdn$!Vce?75hS(fi:!S~s?Lpb+1LQ2XRq>bhp_cv#]o],3zq6;2Q~f
 R9@pABH#52EGnwOANI+jX^|S:dnFKl,9vt~_1pV;[+2?zD|OOR%$|%M_hXU8PP((InoL<K1n[|2%H*1^xZ==TrxLhOVn#*dzG+n
 PWTyCFCL[&jBnTnxYyD[0S?<L]G5o|Rx]qF]jh,)r62TpVX~TEUUmMjWhayNYepkG44xCwjtqlI%J,pSdXM]dTf8xRyd+tO?@w8
 ZIa%RmKsmvDA%sxEr3qGLR?J&x&r7a7Vla+Yhn_zfcPoHtj1bmES(q~Vp(ns|JPYHJJxu,RRAc^G~(#b&vwW$lK0.Y8uRfuJ.oW
 @t4nx4m22.0tP!95saG[@^?&6mv[.g08G8p]Ae@(.)^(WkzetQ;k_Ct_6dam.d[Srl?aWzO+L8L^yoB7C$0I6Xh$HeB$Q7)XO~E
 2e,=<t@.vJegGAY)^MBu,Rc@ey&uDE*.9.;Lqx;UR;!6VgqFYQq6Xtz89GAi#(,.|58vD]ykLGv1wfO6k[kUc_njqqhhrOZKW;W
 NT%N=AX$eHoX>aN!BV;Tv>=_+U$bM&?a*1NaNE,!r65v6XyHg^hPntH)QgsYfOkc6Nqox#HEMI5(R^_<r[0O);z5RJn6St^w@A,
 )l|aQicJ1cg)X+UqTjg@K?Pi0*MpAAopq*1Bd5t]11HR+jv%6;U~7zHR$Al:p|NIuy@aD9gCDZby#xVl_^PILi~zGpPU_dTz^S*
 IrEh:7^<OsmLaT:lo*3JsC?nkDz+ij3VwifuXtdda5!>2~7KC&N6;YY=oxQOWHdn8Kz+QEqdtwho(e1!)p?bK,>U;ck|tO&]Kga
 ;Ou:;q>>WYJNVB|S!SPqd=%CoHQ@d2U<)%GN3exZT5ygGIu*qh&zh~[PDVfZ,,TW_di6!NV!.5!dRSK3JON3w9t:au6!B8WsNo3
 ^J1X+&$s9&a0GQC9df6ZNKG#oeBUJ[~Hd*%KL+)Hg,%MtE?1F+=Bu?*[V(,6(|TeUG3[vla!Y+qa!4eEVu^S&DSHD3:oM<!_a(p
 >U9[0Xb%DA9Xn1c.[6RVdke^Mc4_SvxBdO7TFZerL95ZFrb<r&iez~(x.?R&XzJSx~975X>7QX(=M.j<RgGCD@LO2Srh0~T8AR2
 i7U^7WWM4W52%;[b,1,dPy]Y18M<jQ6^VUG+)ZNREqSZ%s+4:HF9?@57tLb?+JI<FpPzZR<f~R!cpL01:%F,:Cfq?l,X;I$Glmk
 k8X.mghLtMl+.v.BPahWI[6r_R)P&P4WQR#W<kYVLP(L,EsAEdAFX|5,dG#m3l6+Zd,sBMbC5JWBF~|ikgcU*bEjT6|Dl#Qk%iu
 YX9A8z#rz_Vlt|WG8(1g~eSCN^NVG:A>rB4.weNMl~7#p%1x:_|)==SF_;M:0X@zYr2&N#*.pYVQ5JwR]oegUJV,@7Vm;Je+=Rw
 S<hFUqd8orBEy|7TVbq7?rBK#.BY^_C2Iv~f=e=x.oE;]AASZXS2LZJuoM*,r)SHW~Zm#Q%66H~r=M;aXH>QSYIV&Rn!Ijg6ipy
 *vW5BI0wa^AR2*:T|F%IFceAL#dd&ml(i8>m_X+.n._7*Vc$D3PFk.*7C!o[|mLK<x#WwG~E%q;cYx&=vlv1F8EbM!D!Fr@hChw
 d!$K<MUK5ikdCpCkljYm3xctU_X<~a|*G_w,hN6>8=xDmy9&?rodjH1yf)N.5NoQf9UnOm;^Pk;ccInrW^gA?pgyi=I)ch^y7yJ
 (L]$xp?ImRfT=X#mZ0VydMd>o5>fb<;;z7)|9vJ+cp)EFNu#~r~&n[czF^!IH@3i@.!LIqkW1[Ax,Q?OVq8%sRDos,F!E+MTR$R
 +wgpvcEGjTTlwQOJWXxllJGKoJK|9|YEw?t)&|S.tyH%diaMN~[pvkKGrc_jxn=>P41:I1^,!nAL#b]qbU,)yfwNJw#@#|oXV$]
 a]n=#$Q)m~A*S_>B7,Cf#V|Dw:$6>Ja?O.dED5GS9+Rt2h0[&6otezQK?Hu_#lC(QO?fjQS9RvDjwxUNbGTASmI<WqA6.C+ND~I
 6;rS*B>GT0*,Bcu#LqB~0RdF@MzZZ(^k?>J2NdDzlNjDVe:=dJ=JyJA,L;0jCu*brr>)Q3]Eaw3,GJ#*.jBivF56g3CN[R3$GDz
 ~MV1oiopqIboJeFS|q^[N*oY<.+ORKZ>XFIr|Uof8RBxkE%42&]q!mOtk+cI%eT1v1:9^r_AhaRG7Mc=A[+x(%p)t0+$XFZw4HG
 0py<TeLzKL35X<%PkJB=>YBV:5=Dv4P&Px^]7$oK)!(?HN0pW$wjMzW.JQnDVI2EZmwPhuF0J]$M_=K3LQo@IpD!x(#7Wa2[NcQ
 2^v9|~0a*qy.&8A5XJzud0Unfv>U+dJLXO&G,0>A9u,g!.j1dDKU@mR=+BCAyAwe9dF9cyd3L^1@fvi7P,1^CqYq(TjgT@h_,?>
 Y8~1Zp1Z5nuO9nnbK2UBrQwt~>U4@kh+h2WTV(Yb@m5EIZLhk>H,erb=tO.dF]r;l:4^4Su_JBIHT[U))LB7Q@z?MKWWR_>[[lN
 YZkL9GYimzn7KboACjGU25dPoqs:!?0ee%F,LbIHWGL0q~QrnmhphQvVGN0GAoem]nQ~U6x7O<|*dy0fdS?Al@KxlOf*e$Y$s@D
 jH2IpSauDfz;mdYjD4!|SC4E<a4cvi_Nbfj3)m&@pZDDP7BUJaWi7aBtQp+(ZPr_?lAW7Y!Pv6s%rszV%Y%^ARfx;5=+nsvVReP
 KAo|9wOw(hQ|AV.Nt&r0iQ$f1qxkfez|fNgPVP.F(q+W>zWjMIQyo^Fl9O;.$:8#B(j.ABggh?19k<VC0@fel;w1n;SnzQ1=&&c
 hj<dE&>EYF@(Pgl$PI6c:iZ!s?k$Pu)vVy]:fr;B^e,BFxF+mx*R41G~kv1,yd+e(|M%!],@MU2_M*fQOqGV.pgC@%iwSiycPuK
 _I+XdPbm>qb$3L*#d5290a[k($SV$0w@$^815QkgRw[73l?j&.Wd4!^&wnNrCie<|cVd:5[eQ8w*V;p1Ipt(u4r+h9hRIl3:q~m
 cRBz9%Bwf~J[?h97|$Log[Nrw+E*eWTI%cS8Q5Bkqh:qX.|+IkZ,wI?Yzb>e)$4*z>D~br|]otSa6rBU5(qUh8[oCWD0=ei?0=R
 TbT>3JjkaQKabz4lfUC|B4H%XKRJFZ>(?h2o3_nq7>&~L6(SD~yg;X_@Y9aOpfIVTCz]9+4=q*Ht<g!982aI99IJfEwGF:_Vu_v
 m>IaXav6H;0)HxdBYk4n(muGIG1Ka]&Mm(5U1sra1^%>1<6~~2|+pPmUb&Iily3S8j+zOuNyl0p=st.sGwDVTx.@oKb2:HHTG!!
 Jl0O[=D7?VYXOh&K1o&,k7etkzI2Nl!xk**5Tp3YCl,iqfkG&.SR<R1=+8zAXc?q1)vi>tmZgf)Ul0ZRy5VsJx2P5U1|I[0c~r+
 I~IaNHTfPZ.]$S_cnpn])=kir,#YOW*vi:rU$5QiIS#TNAsDhrKOe!_juphvT&LZ=&q5D5DQ+nWq::kV729qtJH!:]^Pb,3AU2t
 ^Cc.85awUd>L&B!;xB0iKi(DE!l,jH!@!mnhCIz6TC;|anI6vhF[WhI:1*1<PpHkZU9&4~dpv7bBynC<A1)C4tZUc$NS)kT0zHz
 BEQ:EFd!A4C&_H11awnePAQ(V4VJ$;Dck,J1duHc%$l[@*7x+8b,p$XnvY[.:Nt?Zxq5#2I@2^|6C<2t9M)U+A1m7]uM)zWY7~q
 cipC0nxE=[;,V?HCv?#zd9xAeS$$@X!7JCO4O?!!+Ofa3EZk~Mk%eDuFYf!Eq@ocNvs8i!:HJe$e=hQ;([=O[CswC0L.J&j.n"⟩

/-- Characters that are composed of two, in the same form. -/
def compositionTable : Packed := ⟨6678, "
 usyqg#T_lj?6+_frw|%=TQU$#7$Dx*;_+(#|V)<76rISVD=NX54e)!cC]iL&bqw(cR%HxylCFm61F)&0jV0H^5@Cutt+~U&0K)Z
 wa5xs@&T=|UQ8K>!LMV;eK$R2?,SQ:)|<Y$RfaNpX.h?jm0NXkMNUjG5~.mgqD%p#DA<D+62t^tNs>dOOo8*n&:aoT0a6eC<p4+
 ,4X(~c,ziYE(wku0xxnOWR3.m8cN_UVp5H3D+*DnB9lR?|JSl$jV@L6x@i_9C)0fG8n0IM;L&5j*QyrprD]GB#LIpkJ)J&rgQ59
 P~PBE?6XRiCJpusuc5HnD0[lZ+6>6,4=D^A.R_!7Pai*t2guloJ~e[qolfkBf&Az_edBhrxXKS~nHn*r.#2.%PZ:$:1*=i!#WNJ
 ybG~,sn)HY_aF;5J|qn8aN::T!E8@Rf2#;e7FoWXvglsTWG9+?cpSD)cMz<y9k%LV~K&=w!@+Xy?r|Hdf6iy23~aE0QX[WM1xSl
 z+n%09b*bqO.Xb)o<8(P@5eU+4Wg*a]uveZQda>?TBAUVk:B@z;hnp4MZ>Do)k8EuRYd=Vu+tBNx&tgNmBlpvz[bD,,j2SAXa>P
 +#tQ%6.DS8<y:[__eIF?4;2^YtDE4H[&fXg,ipUEb3VMQjb.&;%S=O<XEfmNj4:Kt$N#6LIMK1?+nqSgHHyTX<mdvx|W?d^R&zC
 MRC6vR+Oy6WR5WwG%w1hf5y*T;OYV*,^Nbq|eYDof=kmL,EO~?I(XX=j2aIF=?>OR5X69~#)2+g)~4JjYj*=RSiZ:idMRZwsupc
 j6^P[4OwV*%%f4zp4S,WuVyZ_e33?NrF>064Sx^nlo*?IXFt^CI]]<vzx&qIHo?jw|0&Fp86Iw2l+H:RPY;=W;3coMzx^g?^aXd
 RS%9;eV+tm[Curi,XL.u^;<[M?TAaI_;|*(&9nGpWTV!3s(#]~eLVm3GryInW0%vX@dQuZz8xG_,DKct*7y=ihzW0E+suYJX[EI
 I1^e*etWAq0U,H_D^8C5&?L;c&sbFXBo8<X@(YS(Ax[9YRINtCzUWnO?%CW7dP2Y7SjDL0P(R7aLMWZG:,NK9a(hUc_>YU:56~*
 JaLeB0yhbp)g1;Y2c4w$HA0^]v(v&R#0,nF$#6^pY,e1HzkjMQA:aX>=wZkT~Jg::I)9T9Kb+iPr<2]1pE?V^1H9d.E9YFRfsLF
 LKeR^g__rjmVh0*8XJ<v18HE3PxD^lf~,l:sZp=0y9p>x=AXnYt9Jkj(Xm1Ol7A(;_Q*&kfms*mK3jUVkD@.m+h*QQY><*lI&aN
 ?VtnLdTL&j<Bmw.AceGjy>|XT29O7e;P~0=&06QK>amzr8_[;=p7~Ox8qgs.nJ|K*wvNA0zdsbo+"⟩

def combiningTable : Packed := ⟨2741, "
 Q%:7@?%26vO@oPl]yrKWyI*7yKM~JXjK9G6hl1!|_iu|VG[!GC;*U@0]9|1%a3J^J_reml:[AKnFg?Zedyes^$By&4ZsUnA!A3a
 j6bv5%r&*cm;Rp_F[mv6xk?(?E))!Ib|~;<%cc#ANr:>wI%%6@Kg5Rid7Ab)OuJlpujGeAH!?;$z==|q>r#U(tGJtMJy]RD42r]
 LiAo6=cQm%2#x?wY<>?9C0~*mPYz>(^73;=ZuvPWX7(1ZFTs3!JfzVhF<X<mIX*h#cmME6|S1oz%Z(0#iJ6v7X8B~f$U#95~|B&
 )0aOyKB98?&1M7l3+nZlAI08ZFW2?mXvJb]hO&?zieCIhfyXaP.0hLJ=gIv~&:!hQLrnJQ*:;!ZRwKc_<cYt|aaG~Q!BrTId5GA
 =V^0u6)V>[)ybB|_s8907pjbLC(vR~p.Ecaq^,(55Vj1@HQ&]lIIJr+nhK9%4;X..EOf;iz*3Z|uG#C?)tygMgq$GJJ+_6ovtxy
 +:Zm:^@44Fl!eE><UB_Y$njHExH_Lrn]50SQyRnpH2ox.1qx]uQ[v#t5~)|V@(at:E0e,N5XPXa$xMJKYwb|IV:RzV>H[<wKTME
 &^Y)>]qlI@Gs(~Hf4#&[NHfsQd=gqSnW<2Z!Hb)1o^gmlKffl5z#Ln0L2YvonleoYC*Jo)5~@e7?:t~H+]sCD,5sH.96cGWsD^E
 Iz26lX3jZSqx.=T2|wqkzdKwtTkxs>81I5Mpv$6k[XUv[b#_eRdRS%=KL0zV[TLsFW#eQ_tM2z%DqfRV7X]U0C3zH%I.!"⟩

def difference : List Char → Int
  | '-' :: cs => -nameNumber cs
  | cs => nameNumber cs

def codesFrom : List Nat → List Int → List Nat
  | _, [] => []
  | last, d :: ds => (last.headD 0 + d).toNat :: codesFrom last.tail ds

/-- The entries of a table; `last` are the code points that stood last in each place. -/
def codeRows (last : List Nat) : List (List Char) → List (List Nat)
  | [] => []
  | entry :: entries =>
    let row := codesFrom last ((cut ' ' entry).map difference)
    row :: codeRows (row ++ last.drop row.length) entries

def madeOf (table : Packed) : List (Char × List Char) :=
  (codeRows [] (cut '|' (table.unpack Packed.capitals))).filterMap fun
    | c :: cs => some (Char.ofNat c, cs.map Char.ofNat)
    | [] => none

def decompositions : Thunk (List (Char × List Char)) := ⟨fun _ => madeOf decompositionTable⟩

def compositions : Thunk (List (Char × List Char)) := ⟨fun _ => madeOf compositionTable⟩

/-- Runs of combining marks: how many code points are passed over, how many are in it, and their
class. -/
def combiningRuns : Thunk (List Nat) :=
  ⟨fun _ => (cut ' ' (combiningTable.unpack Packed.capitals)).map nameNumber⟩

def classIn : List Nat → Nat → Nat
  | passed :: held :: k :: runs, n =>
    if n < passed then 0
    else if n < passed + held then k
    else classIn runs (n - (passed + held))
  | _, _ => 0

def combiningClass (c : Char) : Nat := classIn combiningRuns.get c.toNat

def hangulBase : Nat := 0xAC00

def hangulCount : Nat := 11172

def hangulLetters (index : Nat) : List Char :=
  let leading := Char.ofNat (0x1100 + index / 588)
  let vowel := Char.ofNat (0x1161 + index % 588 / 28)
  if index % 28 = 0 then [leading, vowel]
  else [leading, vowel, Char.ofNat (0x11A7 + index % 28)]

/-- What a character is decomposed into, where parts are decomposed up to a depth. -/
def decomposedUpTo : Nat → Char → List Char
  | 0, c => [c]
  | depth + 1, c =>
    let n := c.toNat
    if n < 0x80 then [c]
    else if hangulBase ≤ n ∧ n < hangulBase + hangulCount then hangulLetters (n - hangulBase)
    else
      match decompositions.get.lookup c with
      | some cs => cs
      | none =>
        match compositions.get.lookup c with
        | some parts => parts.flatMap (decomposedUpTo depth)
        | none => [c]

/-- What a character is decomposed into. No character is composed more than three times over. -/
def decomposed (c : Char) : List Char := decomposedUpTo 4 c

/-- Puts a mark in front of a text in which the marks are ordered, behind those of lower classes. -/
def insertMark (c : Char) : List Char → List Char
  | [] => [c]
  | d :: ds =>
    let k := combiningClass d
    if k ≠ 0 ∧ k < combiningClass c then d :: insertMark c ds else c :: d :: ds

def orderMarks : List Char → List Char
  | [] => []
  | c :: cs => if combiningClass c = 0 then c :: orderMarks cs else insertMark c (orderMarks cs)

/-- The syllable of two letters of Hangul, or of a syllable and a last letter. -/
def hangulPair? (a b : Nat) : Option Char :=
  if 0x1100 ≤ a ∧ a < 0x1113 ∧ 0x1161 ≤ b ∧ b < 0x1176 then
    some (Char.ofNat (hangulBase + ((a - 0x1100) * 21 + (b - 0x1161)) * 28))
  else if hangulBase ≤ a ∧ a < hangulBase + hangulCount ∧ (a - hangulBase) % 28 = 0 ∧
      0x11A7 < b ∧ b < 0x11C3 then
    some (Char.ofNat (a + (b - 0x11A7)))
  else none

def pair? (a b : Char) : Option Char :=
  match hangulPair? a.toNat b.toNat with
  | some c => some c
  | none => (compositions.get.find? fun e => e.2 == [a, b]).map Prod.fst

/-- Composes from a letter on, where `held` are the marks behind it, from the back, and `last` is the
class of the last of them. -/
def composeFrom (letter : Option Char) (held : List Char) (last : Nat) : List Char → List Char
  | [] => letter.toList ++ held.reverse
  | c :: cs =>
    let k := combiningClass c
    match letter with
    | none => if k = 0 then composeFrom (some c) [] 0 cs else c :: composeFrom none [] 0 cs
    | some a =>
      match if held.isEmpty ∨ last < k then pair? a c else none with
      | some p => composeFrom (some p) held last cs
      | none =>
        if k = 0 then a :: (held.reverse ++ composeFrom (some c) [] 0 cs)
        else composeFrom letter (c :: held) k cs

def compose (cs : List Char) : List Char :=
  composeFrom none [] 0 (orderMarks (cs.flatMap decomposed))

end Docsmith.Text
