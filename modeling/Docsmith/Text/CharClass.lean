/-
Classes of characters beyond ASCII. Most are in `H` for small letters, `I` for capitals, `J` for
other letters, `L` for marks and `N` for digits that may follow in an identifier, `M` for other
numerals, `O` for digraphs in title case, and `K` for all else that is shown; `G` is what is not
shown. The classes from `P` on hold a few characters that are in more than one of these ways.
-/
import Docsmith.Text.Packed

namespace Docsmith.Text

/-- Runs of code points from 128 on: the class and, if there is more than one, how many there are in
hexadecimal digits. -/
def classTable : Packed := ⟨5618, "
 pQY?oLa$+TLXVn4z[Eo?>G2ob8!zqL<fgmobB|a(NedHB^U<iA>1efrqoS5a0?fhss_oxUk?Dmi37n[zvV%)NCZBOplYU;MLB|0
 H>O[Kx@h7o&PgD,HKKJ+>9_v^o!(BkCv[*1Jw)jsL2I4n*kYWhq4D!64d#8[9:yao(=4Tnld?T^XoVi9i#)=a!H95!@<4;6Vtjd
 )Cy2<I|kGtL.N1KF<(<m#(;$Wk[j&@.h|;*y1Fm]72dgh:Rr0#(w<&.eg6gF4Z9]l<)6Uc^?HG$P2;c6yHfA4e=X06ypATskl>)
 Ea;OUBqvc+o<ZnX1Gci>[E@U9xK#0]ET3MC?d]F0o[GL2b>EIt3IelUyU9D!]!L(x^A[^&dey4E9TVl(o<V)rOxq>8jm>@wr&$L
 eQBeqM$,?e|5wegqmV(Q_!2+ePaRO1B=iJs%~^:_vF<d<fAmS|DOd&8Kjk8Yw%LKBID_giV+6V9:b%!nZKW9cUAX.[lYlSEc=@j
 .HtA>ZAE#]<JRU#?>;92+8I5O?;S2~3~qq.=2h?HJuTX*)n1OU&di%Ptdy,F9ZS^TKqdSvCc1F+Q11BL>Nx6WF%Jd:F~5(OI?.J
 *tCMtAcj<Wz=SR<+L4R,n)yA.=SW6erjs,|G@N&z~)NATV*2v,9aelSzlpFPZ33hMFs&HxqPf(b;q:*kBKfxa[bvq;VZdB4)lXd
 bRz(W#f2UbWB<uK)+hDxkimlNeQvh2~p%m1ZBha9?k)S1+m+Yd3DBHJxo^=X8PIb=H&<c4s0[&uG9V4Q)pGubS<b.P_?3)>,bN1
 Vj|~6axjo1<^|!O4tB$f7ppL[ik;XmUu$T^B<PX~Ka.YHkM%eJ*JS0V~wbNrJ^d8m;R6iaei;_R+b2K*XEu.Fovmdb0C]qwvh,j
 BJhhSgzEkNS2?#>2pY@hf6XPFR^peBSbw_[i)~(77&<R7Bn;C@.bfq5_~9L<]Ar&emSmKRInh>X]5F3!F&A~i96gwCN$6kgdZKM
 Yy#wc(ZalF9n&n|Hl6tJC4ET=)):j~pY>|Op*_<:$V.>)yR+x<]o8GYSUv(b;10R.Jb_d=dz;V7p7.$xriH:<guT|K=az@.OLG:
 xi*STN3Qxg(9K;yAqusU4AM.YnV[%a1j,x4%:q_qj#T;1lDUl@%MdCs~B+VF)zYls!<e$!^=0|cFx>tzAG7_It!#DyQaeQV7p9w
 pX.,U9|jBOJ4ll2v(WFUVXAfY(m^_&3[l>?KCZmL9%ATQvAz:,hp6xG_@wslV^cjKumR.[sI3M9z0;#HMJbnQQ%Ea1GBe[K1mvC
 lQ9Bjkvk5jkqH?ToeD?bWeEpptSfyf<hyoT(uGK.xm;%EY>WKB(7y]jKU_ex#C,esbnB|#M|(!EtOXm&LdkHg^s6NC;1~3@=oYo
 +]gQIa=Nhkb7c4ZjFVB>1S2hNSOl0ls3C2mi#!FvJQw0MwjACRMT%_P@+tm1b,NZ3s@@?(e48F1!AhQQy<VnYY6Gt9fv:uq9nrT
 +uya]&EZV4[|b@$kE2GKI!8poY2o3(JSMjEwH=(Vb2p@MG<Dr.|h~H^$0XT?IkFDR5.9?vCu*juxRRZiU)sv78!Zxd(oCVu%=>u
 I^5KYnWh:!.!SQ&:02Q^x^|C;Dq7Yo4Ny#Guww0GG1KzAGd<NxZdw_rh;$[;kxV2g8f_,v~~qcUd:akgNr$[TGS7hGJr+x.f[8w
 YW.3OUl[$G1wN;@I&uq5A(;zCV$*1jvZ2&AE)w<Izi5MQGIGq~aN#w:G1^VnJq!K$x2i5a:RobW!j!ZI2)rqxjD3;Vh>L:Jmu;O
 @9?$72*19$hvK?A7hT]]?1h#R,=BLb[bTb:]HBh&j&4yNGAq2+:Ei1h7h$B[Y7$#]LPlO]Jt#uOS7ipbr1:O~pK&dVaM;zv6#hd
 *k&GWUCU4RrRA]>GlOR1ygP_jSJ##DC0JU+x;OX7ye5u$)P2#=3%W_:h_gbg7rei%2uy%j%5$94m%;!9@+0%f;,:iFVJAlcwLd>
 +xQl$1e4e!Qex?fwe=hl!Fv17!0lCv$9*UfVx@,B%W9^Mr~r4I~+0h]lArO+F@~AXC3D:52pD?J4KGN62;pkUfy*Smhv<k;zlEM
 ^UWG38*Z8dRtj@;61bPAZ!NZEmq$3vAxsv,sY.m@:ZDI5B.b~I~G[#*<Ahsv%w+3~m2;YVTlt>8Anh7m<nB*8|X2Hq>|V~#QM>$
 _mK>k88rceZ%:_m9;NuZeBLCoI$bcASQSQzavCv.Q_wZw:9yWAMm4)JCS6y$nceh8lsezds_fqrv!S7Tsf%Ur^EI8Q9V8yK=PDz
 D,*^=mSp)HXArhYBA*E7TS+[ybFCp#e:cgTNcqy~O<CeLzn)O[NGtQamfKBo;S)RT]Iw3^=CWTxSocqDUoiSDheagRI6pL24jUI
 =8kfr7p|Mr$bX[S*)iF_!74xLAtid(nY[b(QSrHjT[.0U31V0l2He].$vu4,:z%MA*,];)2IzmIkdmAKMay]<MXIO0STyIUZac:
 !t%aVU!5>2P!veGM!m!0)^aE6nYZ>S>4q1w+hQ]@sB73"⟩

def classRun (c : Char) (read : List Char × List (Char × Nat)) : List Char × List (Char × Nat) :=
  if c < 'G' then (c :: read.1, read.2)
  else ([], (c, if read.1.isEmpty then 1 else nameNumber read.1) :: read.2)

def classRuns : Thunk (List (Char × Nat)) :=
  ⟨fun _ => ((classTable.unpack Packed.capitals).foldr classRun ([], [])).2⟩

def runAt : List (Char × Nat) → Nat → Char
  | [], _ => 'G'
  | (k, held) :: runs, n => if n < held then k else runAt runs (n - held)

def hasClass (classes : String) (n : Nat) : Bool :=
  classes.toList.contains (runAt classRuns.get (n - 128))

end Docsmith.Text
