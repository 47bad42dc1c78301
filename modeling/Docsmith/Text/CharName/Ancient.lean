/-
Character names: the scripts from U+10000 on, in the form that `Text.CharName` reads.
-/
import Docsmith.Text.Packed

namespace Docsmith.Text

def ancientNames : Packed := ⟨57875, "
 !AEH=iMPfD$?]O+Ocalx<jx5bY#ODFV6a+n##LNPN:c5P$Q*X^5M68:4<47I>J+zf3]g##|lf(=l?wsev_q:*;rT@7[)c4$Tay#
 CX9WY74IafR2cBRiiX:vfULx38u39>3+CjWo3h9;cx2>r4c4kr6>xU69qKsY4kW.>y%q&|YFfLKljnxhqpvE(b&A3uFA76VyH_B
 :1?sMY^d9?]y)iM#!z~P*QeoAgwRIe^dvSzpgL+.W&;(XaFS9]Kt)W(p$QMpq3eDW?Z|3X^D@WTE:fb9nhaRq66awR96s5%h#Rj
 qIsxc9lq,X>xOg<l|bSW!72TL76Na83),$HFQOXH9kFTzA<<XqaC%=$Ib7)+s!:u8zvF,?[CgMnB)52_PXs4c$elzj4JPitv6?!
 k~d$:$w,bxi4bts,AntGRrkg)N_t7G6N21dV7uoty@mBry8v~F7um*tyw5U*q3jS&chs]%wQI)w8HM&8(Q.&8oyMa8%?b;56K0o
 %;Up<]iV0RBv>ck_RUB[QeW0<C__U:@9?e59ZD7JxC~z3HR1t.d+hQ.GHZ<($X1*GJ7)I<ji$QteaVBeSH+y<[!vl<owlVd$_Ow
 i!jrpU*F!q&hk21#^neJr=^@~~Fwh4+,rW(k12XYE5Hn1_&4Lp3Z+MF1xpRA.O9X%oNZF9t!]eEz*!DAXf6)2c&@te2cBY.&Z[j
 ?TO?^xCzsaldR<f$4IOl@3X=<6E.&F%Rd)pYFUlCe3oMBUo:Gggjc@^_DOHe^k75G9W*;Ca2(<g(ajt^B|4yG9FvL72os;t8*5x
 $9@lsbKqS<FmNQK_&rxLmGsT2:I#MhnXx5Zz?O5l?Qt^6ng^tkhpfF1aU$HOQLj]F4r9STZGisIH=3|e6yUU.JAdFNeS9*gAr$t
 tA&k%XT?e>[ZIFA_)B~mP@yV5Wp@0nCmDrQsibV%3M#jK>V25Okw86CX!)26z![X(jpu:Nm9TC:<+U@f]S!!I?I.*PjmCX*x=L?
 cz6RGsz:h|?nJ+B;R@_1nUe;m$l?+#8]E_m$[$sBHNMbu8>g259SL75[UO>kgIuVO;@9@<C|aj?I))5FL8wwP_I3=g*U7]GqYih
 9D~qI5w&kceb*ECrlkL4k<9|)RSb|B:?HpP>p4F~6~3!GT(1L=Qj8N>$JPVa63o+KJhnX7~T|^LF*5sW;w]u+Mxb:$$)jx<?mNx
 )=[lb3.|l|I0#@(J)S6f]dbzXN)s^l3g&HwR:>I534XO5]61w1T,U2Kev4Kt4pf4=lTysO[T.P)ahtaB[8lr9*RWZxL=066Vfv8
 N4OGU=Qo7Vw5$i:ltK7%0Rq|u^,VnB6lN:9x^l_u<zZg^*ZHM8IyX8^IXr9AtLTz.x1BC(=2ZRZ]xM[L1#9^L.9%%dfn7]<UPwZ
 p4Q&=C~&ovtZ:vKg*I|kO5TPAAhAeo@fNrYIo>M?V$GsK,5T;;@w[R!]d5K+8>p1d2^jzeYs.JT)Md3;T]Y$&3~>LeXj1YdZxHp
 e6dhst0y4ALe+of.FDVVfVj;8u?~jlR8.%j,8dS1USJw@,zHmc|u_o^1&6JKIEacLpWDir^9NZ00E;50=,LA+;jUl+c~@%M@Kp(
 hdmP:|Hy,rHE7[V9_Uy_SAP&wBd?L#u1RVl^_2i7=aBv.xT.O5M,6v2~z64>kO+71DGOgtLos;87a%u|g4;PC$4fieelok7o+dm
 p&HtRVZtO8:E0VpOr@z4eDYc4faI[KWs&v!*hK$>LRNpMR;3A5vQa5Fm4sICU|;9yM>[Sw[xVS7ZE7CP1<%bB9w%j_(8y6baiA?
 4t8Q*Y#)k#b6_cNE_8Xz6)>l61kLxDJ^Jn])=7(sJe~8b&@shM7(m),j:j4BPNLMLT7:KzGiF9J]8MDbA67R|(u^N@=56!@uxTv
 76u#+j=j35Ccyg&w3$FdNV5hM1_ssP?PlMajYkLlf.yO37xgc6+7~$+!6^$KZlf;:9j=7keeTvS(DyhNl2Wbd4g_$A0a]a+|Cxu
 fOG8$u:WL6BE^!6h>|<X@WyYdWT@JhsxYa5giR_LDQEwd<8!^IVB^QYi*w81nSCvB#QkPwB^bWj;F#CXtrufB[U[nzX^~9)EQ(g
 0CnK]aC[sSmH~ZMGJcKD2)BTD[Y?ObdLMO+N3o_O.orj<)iajWlIVlb*9W<^f9>oWpQX+T%MLT&c.j;=%eF6ym6)u$!*;J.j2wk
 %3es6uR486BfU+1MJ5qm7X%(G?49$nlrP#E<WW0r|kJvgVxqA$?@A*nzt)!4yu?I|~QH@axTcarQna@wmC9|)ebn%Hq=EI0*]Rr
 ==X)Qvwlb%^bnB~)w$@B<G2U5T3pwH<Em%i:]1Ylj]lp~U>A$~q?chNz~bE,Gy#qIgF2=cm^h|wwI3wwo8?h7xyhVCSx~BSYCu$
 Tmf5HbW]62Bx>Q=W^,r0;Em*G,f.Brwn|:lsfKJjdM.!R1J8)[G*&_3FJ96GKNSt^G4r[N14qV~Gsmdj3j127?5c.;a<__*]?wP
 gol1ZO$9Dm%VdPcG.CX@1^l6;wt7YBdW~6oP|Y)L8(|=h3#?;:oQm68ixPdEiSC@XooZDh*Ty!CqMrd]q3g4vG?3cfgT.[w)uQF
 IeWRw)$MT<Gy~:qbd?RXPNs|N5AR)y|+NDkP+j5b8|.>YGvB)sLBoi(L8ZzbI9U2x1axwl5%@9R4UUT92%Dl4|Ytey(V3D8Kv+o
 ^iS[rIMpdhBF]Fj?6XpkPE#^UPcR0h9S=x@q_>aHhIAg8q13kh5U]Z+97)!?1tOqpK+?8!v;BB>;Z|A@|>F_C4+C<77*NAT[|Yq
 %ED(@v3fD#nabep2Ne9xJ]Q%3EM4Gn+RAey9>wIu>YqhduM#g6VWY~2?:es9;)ZiwGhlO3TvK!Vb:+A+ED|yMQJNGc>~su)S<,@
 dhW9+;>GHnv]UvmP7*6x^pU6I@mWByjz,<>O7_^V_H$+A^=Uk0)GAS=&oP1T=W4k3|sw2#Y@s95Ik)7G=GQSECjen%]eu=.yq~c
 (6LHlh,E.3BOx$j2[xt5%,Gu~_cD1=0UIV#IaM=5t,8L,UyH9d8&2d#ppr!%31we0uGV>B]%$?JO#0ZO_X#+=iQ#%!z+1)(=q[4
 K#]w7QIT.Cx^@[NQDMGlJmrApf9R]se%ov%Mll<i^hOZFEYg0XLAqW~%yFCqJ!,!zF:$IdABKHv6_2zj:^y^)7&6yEGp&Y&N~3^
 0F(7r7P5ITE,>8Y<xviN#D!AtCrH!I_,tU+BSMbxsSs1p40*NALgDmb[B&TanCj;$4w[fNF^zSYiVaq~S?+W9WUE:gPY7Jl1b_b
 VUdQatC;44naMA~RgNU6lx1jKxZ3~E=k!B(F[7cVQDn>fm$ni#5Xi6|?7W<%&rw(T<rN+9Xf38Y@21y(gwjPbHP2~J$PPy8&3dJ
 yiPeS_Hs91vNE62<O!C>9AN1ktg.eY4njovcCxA+U$%d,dk?M&^tH0eZ@C~X)+mQBbz8%PIAd3>yj7bDoM9dUpia5bGQMe@vJ?.
 FgDI56l1IrDQv]mbD74*^Kg&SC)FkNDnLZ+&jGvxN(~vn;LN]xyRjWk$_Q)(nB0DXfD|U@,G^2OULhr32784S5kyqjyNzsbQXod
 T$aZuo[FM+Fve](L+p4gZKNQ<^&Oe@:[r3LC^)3W8&cs?0^MrMg6m5wZnYqFpbp[O%5;|P;F.57P,c#HXCS@A7aZR;yC&Q@gR[*
 Ns<1RYT,L]M!lv[k_R34I5xcrS#n9XlRAu=fo3nSVz<9z;FvE^NEca.U;j4UC&3h#>Y<S63NoqmPCm^%#D:bZjDVWe5oP7iv&=Y
 5:fyCFPYVbo~B5Kesnm)#&pM7Cl~tLbkNaMcn4ik&dS4h&PY3y0ChhZcbrhR]m7E99)ieqQFuLI.SVBdUS+jcp~EATA8bvH<Siz
 ]0:1@G%%CQG!]|U2y;1ZQ)V6|+0FJ$^U82|>,~^+p%up$5,UixaM6#%>v,:7i_wRA55UTlM(LW5hR3|oxU0_Y?*lUzf5_aZY#zC
 YyZ!8i3e.<uic[G6s9^_Vx.]_+UDF=P^3jS=B!|V1kS#lFn>x,~SZb!YK:D0O#d8v3sUsH|kZ..v2:rTcL_)%+=gk1&]<:3IzPK
 h2Nu<QM2WHs77^Jz]NQD8DDt#k7BllRht~feSdLrFSbw9$z^t]E7zUG*u#0vV.8^UpK5?!b8JMgMoylv)2Ou);:lcU*F2L,(K,F
 1cmrd#uGXV)>SnRlZNZ0keLzmNA~vj=qLWk%BR|@HPZHo(rW4|rst%:x5||@SrKsE88+CNeI<X6PYtUThRt(bM|$%?_AoDaF8m4
 XZGYTPWdVkcJI?b!wK4@GvqGbAx^K3CY!Z]|$ospXY4[aadr#j_Y&XlGmjK:oBWQw&AKlXElm[nM4FX,NQl%b<?km5R9^TpAje0
 SG?wAf>)TBxYWBCAqw3W;fZ>r?=e_HTK~L=sdnw#;NX0id2^%NJ?>gl!n2%B@X|:).DxpA:<%J$=zNMw2S*3AIdqwL#m4q3oRV@
 @+Dq%YX_]PMGz@B>[:(mrVZT1+xKr,,UWWWGN8|IaJ]wRV?[_fTz+HCZBDm?Qv3(9PZwjR$rOl|Hv;P0YO%+o)rz_z)*y@<Sv7?
 cUGHb(*hQsAG4$yV.1yzm~HivQ:.ccW*h7G<:.A(di*DKF$7^1Dfp49:]&GEkyiG])X(*,v&W7yfUX,;rFZ3Q1n!Tn*5:1;E,VL
 5L)e^QwWLAfRY_Qt2FauF8Yd)<]jqc0iYlQ@c_PK*+f.OeP~=9Rcg?a&P7nAu$b9!HmTxg[wa4:4nd9%.rT]XU7vX62t!N>,l3w
 %o3BrWnZX|~P=FznQcVmb|eD~(v,[bb4+R5x|ubmaB_jM*)Xcyv?a:V?[GP=II~3C)&D%L8rMZ<Lh36c;,),D^QU;1zC8!dI^pe
 >Bddgddp6)=!dbqYVgrmfk5J3%n.eLP6%qI|!2UohxlwclyQMR_!*]8?S@~K,kv0FQ8~=bv)Oo#YY~v(tZ0Aoa@U9Nrp9XYv%cl
 tKvSM=&4T&Ek=_8L4xKK:b6oYEym~soX+yLMV[&12$Sb0(pDgeQuPfz#f#ku%kdW%a0j2E=pdmOp8k#]]1MX|I[Aw8[vm2J0yS0
 !^t]q;;FGm7>4]tx2i[%p=TJ6z=D8gheMkEH13;UJOMNmYW?+R3BrGd1kTsQpu8WC+PJ3*UeZ]:cvrc8FH&+>~v]LH)F>:UZCLK
 <[J!.~2f%n()FysJB+[7:slpV@uYPC[e%wB|tMkFWRA#9S4k19y).x9P^^p<hFAaiSJxF&z^HD)V:Mt5I<,yGVY@tmN1Zvg~#Wz
 <ZLe>Yzk3a._VWaQjCiNw;bJZ6O6)j$m_o[ek=4i)DZZ(6NH,d>TK&fg>*Y@F|OgGQu1uuU~9HQV&=HOU_*T?syDUv5iupsg|Fc
 *>$8v=iA$^2z[5jTs!107$.guO1SNA1&1<*P75I5BFupHiQnOfi&FD2J$CaW.f7+vPrakqQ@;gHnoL4n;Hw<!_(qg&dNm8FB@oF
 :n:l@]o%F|$yaGH]to;A9wWQ3*DkR!4(w+AN@QDPIBR~5vNOWY=vaU^b*MT4uKDH@Mzfn.xqzPfbmj1pXUxvcKy?J^BvIhz~K=M
 >?l_&Dhc0!#F&~htow6>(W&YQzB|P.#L[hev,Cy<R!+z4jJ#RAJ@tdWSHg0>|G$dS<S6PoLP_g]3xo,mTEycH_T=t.^r(dcZtNh
 0CJ7S?fuS:+Yok<G,~;09qQPi1@u*=Ft!eTu#guwRV;7Z8RqfAIQ2:Z,Z!o&cKXhMCNXz40oggrt@foW..ZP.uNBT@0ikbJd@&2
 HT*XX.ZOO1X%^RzhXuXbx;PuqHQqd!(1TddXppq]Mv|4:Ao((s0mx(MW$[@|c<JJRMoBRr]586Si4w;Vd<eqL!*J_3Hc<0BOYY?
 U;6_UvH?ZqB4>d&k4Ch;Sz3*lBqIRc+YwF<hY!esa>0OzA|)%Ii(IjK4Tqw9h4Gyyp[b4_c!Xo:5G7>=LKUAe.h^i>=wi7wVp?1
 =nGWyc)=niy^h4Qgg=cMNYXFksYLp1BnH.0Yf8chY>$X5_*tbmABf&$D).%W..LX.2ZN32M;=p%EM2P|w]6|I_K7ouOO|J%rIIU
 8ojMp7^f:10cRQ&Haa<5+=YT&akx|#Da9X=rG?]opi~S,v7:r&NfA#5wpKfgZmV7<Hvd7fSO8UN$n,;:N;Qlx,#30kpP!x*)YKy
 ApPsbYCNce9*,L4]3ehH[(W,cX$I>S2bH)QcF|y0KOVTc4MuPH+*m_GdGD7d+sA5mZ8$SCVulv=kdOy5g;%pHymyc;Wv+O&oR.w
 2~eV)#E&r:zuu0Dw.k@QsGyjFf&Itn$WJ=b+@mQ^uQZ@o4a6ntAb)T@)hcjnB>v3S*S)u.7!m1fK:|8<o01u<eGug512|(*=m6u
 XcH|D~5i,lV[Whk0UZ1<;?<7$udbQN[O%VGMubX$+~&bl>@0A@F2MF0,k@APoAT3XlZ]Id8oUyE(o3S)gm1!.5pO0~9uFz^.f70
 7IPE?|FvMCQZ@&T76qTJqr(mUl3E7]+q[gP<R($!wOIo#w,Hhl9w9!Qdq@hhnN+ihXFACG;8qoxhaSWU6KnAmJigy:$!=tJYl~N
 nj@aMG.Xxd=4haSw_Q6m$Z0CO,%AEr;BM_RNB5&T44)9>$l*#683s)!1NUa]n:TE&QBT(|aS3>Wz3a_+6%62E6&S|7JCH?QpbE#
 V=Ds~3:05!zzlnWzqg=P&;.@QRClDto@jHPqBcWkynBf6XShM2zVLTD6_kW|eRRpJka5ig[E[GW5CtIY[C@t4o#DE5F)9s>?gZ=
 2Ypm0BCcPy(DcbN%+yg)hyAmbc=pd[~>HLF$pda5nuVTu@BA$VgrMh7XKkt.Scp7:xneinD8RjYEAeJW2kk$y0C2U(6?dVMgf(*
 V~&&kQa*a3X&qP|(3<[3KIbuUYF:HnYf!H9~Z@G4@kTj?).fvDc#*kq95|(;Yv5T4u3q?j2%|wD>uO7mq_SR3I;n|A&evf2XP*+
 ,L!9bmidOk0B3#~h5yf:B3DRO$246Nva~.4Z%jA4=ugrht^[)Q5reDyqhQE+@Ot]]rPNt9C.4RafM]WR?4DC;~f@JH!sXQjz1la
 g5|Jy2dcp&>NXB7L~S7QnlDGWT9tEn1X)WBv:3#n,t.b|dTk3Z#e2R,+36?]mHVj*il#NnluC)$HM<0yCAE&+@~Eda]Nr4BSBJ8
 H=3xWzi:AWxbRzBIaXt2ZBOLtJ%oBSo=(wiVg~dFe5msP8^Kh2&(Gqfcm~>zI_#H+?[+jI<?=YZv!+![Uv?$3xj%6m=SYgK]]vm
 bi#T(<$]x,QZ_p#;h>xFh^x>60&zj3)5X<K]!OC*gAa!c=Ao5$):Y.J:$UxY[RV^s>6_E~ae8@h4%_N>v<jNY$tW1Q]>8n(0hI>
 Tn@:S&FPqZ$!~U~xKB~*?Y8j4!:QGugo9cHIr<s<vTJ^GImUh265XD1&l9S(LAty5IA&4vG:C7m@R59X9OCCmnmv7X#,,F^e(Cn
 aM)dk_2:E7%S)_qn9dUK@z!J5aUri+:oqEZ,z|:j|k=;<_P$I.g6S0.2Ux%YTJVX,ZI)NQjh.=]P(tv(;ne7HHzoJPj_;g4,xLX
 cKsMY;bgP]^aLERQX<3X?k$GDumyYNv0g|@^8#GWAfe(,DFe]Hc!Px9.8rWatndh9*=y^?78DZF0nTrkl.4kiq(ZsW;w0(s9=O<
 6rwUQ)w6&F~;30f]Ue7><D]dWn8nYfCd6$!sB41)^mhc+zyePtlL~etLXjSd3)SNn#Z(^(Fqw1Gvf$or(^n7PT+;r>+Z$u<yeYM
 l#1rE@l#GKny%N<u.%2yMJ~=_uow]l|=]8SdLRdr_wc_9l,[3AV#?I%XAIo(]<t9ST&&=v+h.>Z0,eC#|;6fTlg>_(v0XL6]!.i
 VE7?~q9;CZs0E.$hya#C=+?E#T!~mu=r?$cYGkh@t?cA[_!DJ$X&HH*S:R>:UewDo:Y$T,^A+5#uT!n;I82:hyn5p%lpXyuJX@l
 Qj.b1MeSXP_R]_lwzPycYH:)GUu2=6@+Oa,#CX.[A7c!mTmb3xE~eh$8HF>v:B#<yW$d?]iR)yDeHjF#kR~VJj!!*FbW#Qpqr)P
 qkdK~>0LbQ>GZbkhC0Af:gMlek|r+RABsEZSmr9&TQ%ynPLbvJh:J_r,N]Yw(%4D,:rOnrKP%dyq0%!pjS#YZBY;aYH~!@:>UtP
 z2Pr6QJr>Z44B&QEw|Vy+_kbR#ysuZ_H]+_+NLmpgR1V^epOHSw136G!h6?F$$Z5lI$wq4)rkah%cs[QfsDINnoY;8>1DjXv=*P
 Ze(;E!yW3N<i],K+#ckmBCV)f:n$dm6AxF79lMa&0T+S05tPI&z+coq!Jj98TQ9wHi_2qsp7?w8B57H9U<,MsK+Q,~|W&Y)SLj]
 YHg!N,76nx:^PUrrv(9ie]q*?#tyrF2iz([dxINb.lqab~0G,G+?<Y.JhwO^ln0_r<r:R@31>3KgW0m%G|1OHsZE4F.oby=MFTi
 ts%vdld30dt15nCt(IefkbkKm;rzbmO<k.T^f%@Uq,hi5YS=>pO+t=?QdKM5?vDQ7M$3dF2irl=GPXuW0E6^^oeA0dxWD0eLBzd
 adczg_C3BWB(QgDLtT|llZUYz]n;aqI_CB<LEC%gD1@xIV&b,(;$aNFe4aPQBd>]PJQKwB5,y_EL,x|[BB>(rDjbRQ9S1qc>l3#
 K$,BNr@$;3;LRuMS.>LcWj9<t?ZRafzJ2vFv4S*Ap|ytVD>AN4Lo6h4!Dq3Qqw?6?8![E8C=Vdr]zH54WGI25+TfA6^6o(^Hd@T
 3fK<fk5E?MT@QxNO8YPUXWYLV?~pH.kH3H2$q_r08@%>DC!tS~bs&QV77!#v5v2=]Dr?>>xIem=Sr2__|$kTYdVI1[YR%2d09ZL
 &N&GjL*_?!LOc0VC;=Pvqt4q<V(LU,$1N=WZ,!J$vEz3O=%Ql|h(0>QO,Uq2u:^D.eb06&mW|T8)*iSr$a0X.7xZ]%xIn&5IJV[
 Mz+_pGAj?s.1OY=V$*w&O[F$^2Oi)yR#A622o&sBJ;<VUrK@mnf:61h)n)Qrp@mGiV*CXCDxE$(Vpx6R5h.d,fp_X%GNjIGs=nv
 RuA<zvLbJE](TPsC_m(3*msr#Q+?uZg|~x+B~o=H+5QxriX@@$b!#&PJnM=CU%0P7>K$:#;TL7lw3aaHKZ_uu=XwqWJ8wyyrV97
 MIylaoq(vubE1R94#h7,i|#h@0tI2_hmy)+q.)ux&s^qO(Bn2>mt80_+;L8&RaB0]MGW+[pa^l&Ww)OPYy!EHzc<^PfE=$NPXBC
 (G,ZpMr:CH^du)25J_ZiRh1I4Fd&GR2#6*%X?zIJf[<=Avv8UHese(Ye&X56nR1HI3EKSi~.khthdfz<(PW:)h3I|G5IYajO,!G
 yad|8^J<7OblVA6?Yq!&9Z42b~%pANwM5ChF7K0PBjg2s%dMShZk4T&Dx&KEEfO8s=E=1?s1rp8hNq$J;VnEpp9K>G],zE!U!DX
 TI6:IDK2Y[<sPelj[:Q?ldWb_0e%=t0Otr!bbtLV9mIIHwtFNGb1cxwaLPX~WN*4wOCQ6s3<^5OdOt&EOPQmLyy>=h0YLjO#t;f
 eyQF>@?Z(@i29PRP,&uuu;3O38e^dl;AhHk2Qiuu]FYMg|[u~4WR>oz[Pv)eHd)p^[A8fHlH0ubomJCPhEa%K6psI+1enJX=l,q
 EEc<&cR,>x*3$kzTnx2#)N+wE~XIA|9^x#$64h=+uawi<S:wi<b1_P[Cw$;#17q;cfV?ZVw>^ofa[R^Dqm.#Np]W)MowY#V5O]v
 )@Iehs3WjYpD_PTufSvMGL+&w?oQBl3nzrzephqAJ|w*EZY%8F.KFta1l_AoAx?fJ<g]nsyjl^O~TP*grcVBEK67(_X(:(WhGjZ
 m<(S*CrkjYVnxWm]66I%!V4o?h;j,wtRr37iY2%6cxV!~1g?~5BB?p~)^CK.K6S6<$M8Ewj~!;#zr:_fu5$Cx=:D+pAnM3o18O2
 ^76iK(t!T;qz&z+x;C8k.O~iYlbHDUcih28X%)VlLV=pFDC~UR3%oUB@+gB]:VYUcFJ]j0@uF~<ECmZpym+&t3r;;cLz2ab*uG&
 3Z:9:a3~Y@^%)|g$O#D*Z_vR!z4.kYbvR9P*,QE8J=cktudagpxEeuzAIo8a.!lPGRRTRp9UXbU8kSgXBEq4IW0Q;t9WConL0r>
 vwjkkg@;y3ZNwwrLacYJ9J;WH*F^&[]DKygZ9e%ztjGb65dbMDhNxd]hsY|Pbgl8xO2rHd0n=1vKsS|!M]F_RhUJHN6@&q6KlGr
 chPAvT6Ht[8jlaTK.GKIQ4+Iz]5aKRHFiEtG;,yjzgR?4aHA:$V]MrSojZ[qIHnZ]X,%p[.<Y4AxnaI)tF$r2UWW$8]xpB!5?Y|
 )vp;fLFk&:e6O[;S!zV]X@Jjm+(1~X)#(6uy^hJo&W0jUWOch?W[^x&z.RrF~H!]<VCYh=hL1oGkeU%.5c,CwDWdKyA2b9&bozh
 #hQhptPWPgaFt|#[cz)t6?CB@*2s]q|9YHWq6c^j?_ui%;q~<y2Bp1rYk(W^wKeu@_uryM(<7r)qNCxyO;2C!OA#3soa7DBbOWL
 9JMt<VXmY![*<>!^Sbmi[CcP~1.FDpmx>R^|m+#a=xqEw?KW=aB6.vRF@v.%^Uu9*q6nWGL&YEU1I!p|@~gQ,2r<[fJ@|iBe?!j
 #F0bFsG85NzDz)oirejc,suUf|DVD]vC_fLm~LX^6yH])@1,Ad@*00YCm]!4,P;@A(CkjRe,X$3,cgzbT!)cs6Qy!lrS;xW4V_(
 d#@6[0Z)iCxD9[Se#$7SklHOYO4=?zy?;i]Cx<~_8]ao;];lC;|dEMkG;vN&RA&1&EkinUN0tabVK%sKVg<6Jsj2McVuukG|c^(
 (%_b[*oXw&u|i~&j*z?6s9KFV&S$k@N>zYg4DX|C$.(HXLyHqoc06]_k~C*Aws:N8Trw422:J=p3=cyH=Srgsg9_yVEB*bk!=a.
 X+duO*^L6c2&I|sG~v&xjEEmeECmE&_G<k01|i_!6nlBRmgwlajOq~U%yl|[x3DOn%;n+FxA^4HPZ&w[~nqlp&W@>b#cw4ldK:;
 fqGOHi+Yo=K[Ke]gq1q)6FiJYev&~<U9VBX@iwm$[$?4ZqcLmmw1yU]O~LFiXE&d.^iLgf<[|EQ7d=o6WzI?Zi6_2XTX&&dtmds
 Trta:Wo=ji=Jd9[Nss,:.:rxF!OoY+:?RjFe[1Wy1QigCA.Q8v5Q6O:oYTlERaa;1=D<+]CURN8h[|H9)E&Xo#]]b!%s~o]][C(
 Q1:Wl6:gkL]*XD:Xw*MNnB2<%N9|<?lFAxME2)h3IrK.:<=pNhK1_hOP4i<pcKR,:.tco&b,rtpd_K*Zox3:gOF)Dw0DnvU1(NU
 CFS^v8_KaEQxJ(#s1LYa(I#<xf[!?i>6==:kJ_#*ekh$r<f@bPpW:h@c#=q=VBhxxbg$VCsqn6Mc5fAw6$v>C4#0Ka(;b;bWv?F
 G.#k.*#9AYb!uIab6a9kBn=7XkDd|)L<(k6KL.GRZ(5,P(VODe!Fa:(fP#un_f4II<0Hy@,nDIZ$6T0:*3o]ZDs)LP+SA63Aw6h
 9!eG2tah<C;$86>.osgMCWCC6G~b*%f>KiWtrqE@KTO6qiBpWCeyWmCL#?q6$V3U_|0yTxKOF+n~+K~MItp~y3zRs5]2AJ6m[1+
 ,b@c@L!Y&m#qZgk75J?7mjDXYllb|1;|;jq3qBjZz7UAoN<>r%?@jT~PhM_HlJ$p?RwL+nLU04!)cs*@BdsL&i3iJ)6b:g]DVCa
 xFw#a*1ny+:=.Jj@Sh5$wiTW+X^Yt]o+jwKv&17<q5oP]JV:t@Ax:nt(DiFqH$:aT;;FHb=V0k8OPYuK~m?]topC4xUStesuCc?
 p35!;Xdd#O5NrM<>$jEUQsfZYkboOmB<27Z^h3Vm|5alvfyG^h$PWh>(Z)u7ida1y@HKgl1:oSNz3f3vqr.Q|c6@>|JHeX22[(c
 W.y(?tCA(nTcoIv?RsVzVNlu?XL@l=;t]~B#3wU&khHMUM$E1o~Mb?CXFW7#ZxN.v[dg55<^&tRyAFh%.:9c<b#j_fK<P:9C+]f
 [n8eTP|Dihop0n!sUssHd&UIxC=MrM:B7U2(e&f>$~O%!lZ0EUiDL]20]T>EY]xwTp;D%|*knvXB$~,2I(&JhRA38E6>u)=4F:s
 E(AxvM.57sNAoE4!Eh_A_ZzYFO|JzaZy%t;sR8GAx~H[hhipS=DvW0u.!C,>Et&G.l14yNUv:Aw;SHuVJ7WMO2F.$8.9DD8&d#c
 o|UH|lOI(=vw4Gi=x#I|C&vOLu;V#ky5qIoB&w8Hj[dCCW~?A.B](8Vm@E95BTlf@NDhxCv31%clH(]^uBslFu$GW#AFX|zcpa<
 8KO*k1;LrGV*zj]9>f;Aevbj)WreP09qGNA](N70Piec.PFNL$vBvukQ:$HC;uCJiR+DMiNPPnEcP#+)?;G>CAbY!ve7OcDH[5$
 (skvr;M?6q2J9Po~:S:ikvJ0<;+A4Bu=1zz|j?1_@WOzc=NfY;G|BEs_M5!^ooXdx#wd~cD24fp=DEXJO=7aUsQ%w]:mD,yI]Xr
 YjnKJC?qH*tpA?#!#P@9qC1sBsO*Kt(J7|fvLIqjR~Te<^[t)%m$sn*>=s8FB[cU#EAJieDZe[7VKxYF6gb,!m>W^c:~>e~;7?F
 cZ5jGYX<JO628ze]!!D)@ckrY)b88BaK(pG%oc)#NiS&KERa%[Z,TTREe0C!Uu1iRVL7Qe>Wm1:pjZpgUL3u52JbteBp?AHj<&C
 jjF2>+v6d#nR!NxT#MY4Q25UG$?#p=%r?SJojA(z?%t4Z#O(mRpuI36q2b0pdT(YdM*ZWDi7P>!q|6#@=rwGG<<m%2tej=IOl?t
 [T@F$<fI~#|ifwVmerIF>OPoM#xSW8LP;c!%rZaI<I%];hseJ;niKzZ=q_TOnfr6,+B~P5*r@r*:^@:PodpQ46tvOgyiK3b>i@A
 Hzi+rWsC9G#(u)~Y%o5ah.LMLRi[g!WjV8Q%wTuU&oCsOt_!8v4,vg>o;7Q;5;6Vd&PNkic)j?Ejpk9xi|BqZcK*gbubf)iG,Zt
 Am9;IkDIve4F|8a:2fw9%[_wKqR6)b,?N;,~cXJ;~o#5N9cLNR]=d^$918YjAo)p!ZkNH&j~C<gdw?:q=5@tXK>I88y$zEB>Pr[
 ZBSv~qO&>+C>eDPzzpct@oJ.Z%3G%[1CLXZ;^$jfitx7J)*gbbpr1_$!m=hRyTsg@|j^8YY*U=cAlZTRl?b#n@r*!)PGY6V6#n*
 MgCT![o:Cl>FeZ.Fc$_^bpBN,x4z=WUJ(JfY~4PKzWxfbqa5fXjP_GEWcJwt4hp%qyg!XHVFE,cNFA|xO;d)^ag~<EoQGYsN2ot
 oBF<|8NGEk75.?02[y<)#wEj*xohbdCO1wjt:3j>:A9$cmmkAva>poUq9)>j5inl|.qT:&ltsfE43iA#I<J2hUb>u(fx)s3O5NL
 mUfE4y37GIu$)Q$|Tol7?2%j*UL5]Wy_ReS..0zMYiLwbgJ^i&X?badp6dd&N_il60_%RGM)t^72:>u7ZaPww,[wPj[*4jVv]!j
 ,$EoLwo4dC]X@++gI$[v%AQJohM<hzEC8xz+&G*]B6&dDS&L6p$+m66]?RxW<77c_.RCjGp))$nmiYkBQ7PCZQqK8Iaue>[4VTe
 nb6O3MLU0tJ@UJFsoI0zZvLIp,7r|c,]YV_174ad+7ClJQjq~TcZm0|)Js%uO51>%A7l:jE(w1)^&%ax5rZCd:NDl?|IO4q[tZk
 2mWAT$[IJVLy%3DlqT<v96=Iqwt1u#cEHw#I[D;U_0+>2;#Hj9qt%U[#qvK3n6ZJSaV(Px,k,6%E~?10,819GkT?c!QGhb|y,v5
 YIERo+UItyQufk>Tt(E*?8,HQST=KVNlMF=R4@x*o?^>OE&03In8ph~5*%+8pR?$5#Blt6)g2h9dze<L*ap|&Jq1[uQdU=t%#SA
 #!v<dGh1(?04+XMf9K|J6PUw<SR[i?m]HK_=VF3lm)ch>c.fW]frnzI9P|9aNS?*L<R7YRwE[xu9RH+3rMR2tWgaU&T89zIsn|B
 ,6tI9%4o5jJY>Bu7P4,,[L2.f8PFo9,Z~0C;fvx35yzK|<QFZ6334ru,SOeL?>E6v[wVnS;p_k1)aYm4AcGut.up6QUvTB>Y;vv
 4:,Z].3*&Xl%Nm!B,QW_XEq)2Ln)b(5jwp>Z[M.G1mPDLKNW)Ga@LE3RCi<.F;k&+&k~~PUPMw,%fz4uHv#N;C?$r@tB]z2rv*)
 Dp+:Nk[FH6|om_~=NnrwA6*FCKN~ZDXXWIw~PuH|qv>2fqLS~SMSo|A.|1q+sURH]I7F]|y~(S*3WvhR4CNr0se(4Zijme_Zhva
 M+6tt=XCcw352L?8~!Pm:;FiO[>]~:r(L]pX@iL6~B!x<d^Pqi3!iOfhE2H3n#z*+a(I,!0W?GWaSm+_I~P%C8jFFqKQZqCB|A&
 dDAE|jd]XJSzs9!,j5YAXT~MiNc"⟩

end Docsmith.Text
