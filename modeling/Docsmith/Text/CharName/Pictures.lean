/-
Character names: signs and pictures from U+1B000 on, in the form that `Text.CharName` reads.
-/
import Docsmith.Text.Packed

namespace Docsmith.Text

def picturesNames : Packed := ⟨78140, "
 +*5qfGwn$r1KUo8qX*!7bMlbA2h0R:4TCOYLau::ETEGzn*M~3RKSe]^RQRhSh!YEH]y^P]F7@Hv|wPm[CR50lyIBvIfXZjp|Rx
 DQU53Z1WWEi3Oa?[*K*1,r02],F>FXiHC1jh7^!:jjwUmi4J6kqgxP>iYuM(!q1eqt%ZBNAtJ1Sf%.f_qSK8^VYfrvViSUCg$;E
 >Y]tZ[TzBR[|+gneN7~5HX$MB2H_kq.(%LR_iK*~SxoqR)Y5;2xr)f|KSz5C_bS1gkI?#!QBC7JyGCAK>T0?kMZm<?YCBXlzJFn
 Am$g~D]cQb@05iy_wa)gEq*er;k?w]5kxJIOFhw[zNO0;=k[<uu7KE1<okc87>IuuSQDH5u$cCl.%>0jWwyv&?57K81vfg[)#VE
 t~^d5!UAV$^|OY0s4Ftfbzm7unq]hv_!&:dzgu2p<PTMg4xZ!.Dje$;V=2_O0Dmk[A#NAOTOD%md;>qcNDl)JNS3~w^pr6lXb=c
 Im#W%;Q;p;u%<ib]_#MT*7A,dGJS#$WaV3EPVK&X|=e&XqFNv[O&v,!Txzr]+ZzJc@~MD?d):K=Su.ksk7XExQ+[5sh:vX:JR|^
 1FECB;kd&iHzc3E8@RA]1md0z81OMYq_aAfoeURFo$HTp|>6mn;SUPkeL.f0k_7fM2%Lhh5e,@S.UtQFc7LFOjazYSJ?w=mv,+7
 _ejR.|75I;wZ1*lyqjSN@ceVal0b=$L^PsRr3#d^6IJ<i>gSmmTAqo?yT^8AU)+%WfXSQD&2~q8u&sE.I~(&_8B>g8ciX?]wXy:
 $aEc%%G;jJE(nK&:PxZ8(rbQ%H[unO6&_a[|gSs|NM<>gU]|Lj|FBoet3>.[2C9]OjF:US0m#egochtf2cM*0e]yQUmB$Va69S9
 1C6dI&yJ7W%E,0J%B(F.L~iRV9LsO!Va[ZCb,)P%3FP<B]OszATVxVyDn>4v8#;TZBw9bpYjz!GiL[0PInhva3s9ivn[HDUB*cI
 fTx?~;2@K43y33s:_|5YqYSw?KuyL=#RA1=3=5oe)k3_[(qkkWYegnN9v^)5Wg]Ry[cT70;7QY7%$5Q_=HDlte4Od|*1Uz[4soQ
 uO$$vD_PXAL<zxk;PB)w;)mEsrQ^dP>O<^IR8G6rlE%9>UTfpEX7ZR[BAH&rk$]?.&Y4bTOBZTp]g#frb)ZCJV!i8Lbc[Rfh+8H
 $>B!Rmiez1hS^n:[r$EVTyED%$%g5.%L)Mc5j5e.:CR9ORpwC+dMRE%T?bw4af9o8w?Mb,E.PXrkZsc|PxojPieYYaDsE2<47~9
 9c>*;x~e^ryoA=&75igXPotxXv95=W(]t$xc]k*E_Eg;EBbnj?qXw#KVGD~X<9z!O+Dp^gawZ~[JUMtMaf2jwNUUn]NXAO0h:.o
 uS3;B5ugZ]Ogj>:J%uq,L>@rm(E$C_[Yl(ch%VnX8AGXfe;B.ls_z_D$lRpqeFrYtq0l;18GZ|GmDHED<JAIMcFp+stPJ9OB5,l
 o,BD&G5K9K9i)$D)c~qRhNOUobZ6EKQ;))qSVV9U1z;[bJnF=go>n8:~%NIwiVAeQP2a$_v%M6C~kr#q[@#%=*c^u*<,)DvIgRa
 S<lEjn%T1CM:Nd[??|H7Z^tq@nTrTXHDJy=TrSn.D;+LgjDw)0w:~TE1d7Y<Y3l.FqP*OVk9PWtLY[0jVwmf,5YeGxp%ltp[G7h
 fIuDUo#cqd(w3bqPyHg]4O_cCXgYUu,uNXSMb0oc$6W0qUH+3>;XU]*+N%ek5myBZEm1#faWg*Ch_E4%||UaDliGA.bs)q.;.LQ
 n<u)>sK)zj~dH[gFroI5hLqjbI96;TVnsWYJQyb0+I[D4z0Byvu;_byS|olAItq5^zCeqa+GI4W.TE*5tq1aP97_Rq!yor+7bnU
 &jifo8Pc|[@|%Lyc2tP0;NDBFHnt>U@[*u19%gjLZTu5yt.2<ka3.G[e>f[|Exk0o5M+L>%g;@=ZV+#!gmmTv#EIR0g4heH>,^p
 vR^Mmx_:>mIZGH|n;zy)OG1WJ7n,R^epZP.La,(L^~^M~0XbSZOk,NfA<_m[vVKtI<cy^b@@^pkLA:YC<;D!6)&VZ*k2)y7FgQ[
 .Dzps3txu42970KfmPEUwjm_d:K^W^ib^BYY6kCRU73lbRVCsAK9H!ZL:|XQj~9I?c#:~=sA$?TZI;7)7q7:20&#jkY>gp4[u3l
 VJ<m]u8rr^]Yh0?jc|o]dB![(>E3Iq*^!vDO.d*~d>RCxHQn<T,M^X84Ba?LQ*l!.vxeiC^u^BBv(IKb[gQ<p%USt9fE%y|aht<
 @ueYm.eERR33GV%aL6eNmD!wCpZwyw~f,Y)lGPqm3YX8#=r;juZ~JJ0E9VusY@Dn(uzT6MXl$yG0p7jCGNrEtJxr~;MPGR%+Pkx
 .kOGiaTGw?L7)+g4$:[&D=+9;w$Xg^HHv(JS%(9Ma;&%@4,%)OkkIu>ma~DBB|]3e<@C88ENuhOfCjD3Q+wbkcQ@*tmDRGZIJoq
 [6RjpkE~.b:4<JEq4Ueq)UK&Th#%=Ba=API&R[sx=YAlC9:cKzojq(DNg6Xt($2((cuLqJ8z7CepmPlwaiq;w]H1sf1YyX=%V,3
 QO~0rWuv|Cv4gCwW.,j8Xa?S#?cwC~$=i&~(%;VvcGF%!HVc(=$X<,(WH2NQ1KzQAftXL(V|wO8+Fc4#f?6|N<<,dZ;|gtN)sJu
 NZAn!CVY:)3)]Q9J?Yv045B)M%qVlt0YgA6Ci*+:&b3=3K!Pxj^RN^(RTzYH.nfv<J)XX!,N0qhw6d0,B(<m0P?gb[h$k8%<,EV
 vB[xCpmMOLSzM[Ojm_ms=zCK>p[)D#(lNLZzNkCt6+lD5pBScG<eoOo1$M_2D0H&<llfQKatgYepCZzT4Vk,Fz*m(e!C3&xHhB[
 0#qz[[5&O84O&E+.j|Kx)yZA4pZk3WxLKv5gD!wb0.EksTmE$0cibi*#PQsCN8r3)d_]VbT&WDzNI[0FrEd#ZJ]&(FXs,zT]u7U
 o~ci>.;+8TB+z<.~>z*68NYAEQ%rlM.bAD.|Xc0[JR<hG8>REwWKjV&7,C6Iv:9!.AuT:u$[+yaHEN?e[u[ril=Uv.P[:.VE[Zn
 e=GgnpL<_dJMVGQtWQk_4f1u8MFDwu[5Ds_PvBxg2Oeb.gvA??i?G&lMR%d!Y9zKXdDLp@WIF,5zISe7G!6IV,D3~H8G1^(<MLS
 s?LD6:d[+Qj]2YAq5xo~t=Tq3!RDz|kilgqvfVbHt?P0kuSr#Psvn3d(CIL&47?3S]:,K4JhnOrQbGA<<fOf.L|o%XCOZXs<Vxx
 vUmV2*;=&]W$S].t%zhKs+q6*T9l3#4M_6kfq[?%f*V<BllZK8ZV@CBIW@W&gJUP_%5KCzJm?Rf=NIDYE:TEvAUl%&nk*Y1fFmu
 8eX6?7rphS[BY+:6[Vm(>apY:5&n9!?6iGSz5ymo)vShKl!,@6:Mzx*yb+)&vK32DZTCa#Kr(kNe[!@BANh0^ofumt70r[ksLZs
 +.BkdAKG=btMNFuQQ%!8cSz?9.ERzVPWoC?lM*)gBmS$wBoqh(Q5BVQ&lhLofvh1FrhE73k&H(WE1t%zdP]=aKoh5N#nVtoaXMN
 L23N~1n>G&&IHI$7uk#M)k]<VrJvZfsgGWIbMT8;:.:0(J^F!Jaq,:hBI#SWDH2c_P?>O=pru]2SR&aK8uFanTp4Zy4)$q.ePfl
 i~%XME@g<s4b:kR34Wt8~:,<%,Gv^6&kzD+:gNix+a8cq#CxZZ;C1wqz:mlsW7&dF*Uob2aXRMC&G*nlY$^ribib2$xK2GWGt7L
 Z^[,[XNc~l(9lDOd|.,j+z>8>^3nZfghpfpO+zr8zpPP|Ti):YmiAUUw1C|hwhVw:d&03UIs,g&dXvW):q,@1|x(8X]M^?G#A+l
 xY!p%?]@JT?f38kRGS>t8+1u21pX96awi>]+:v@m>3$<N:?U@o9lcJ#7,YoF_q[I]m@86A|eOK)cW4h$Oi$QH0lo@wpciTI@Keq
 ]b1k|1xret0PYLcM]o5tSe]mU#e.3<$Fare&..f[Iii^[Z$,o^dM=s4_i|tFo>%2:lker|%6Kv,;o&2NP8l2UZU4WgKM!W08mAI
 B:72&!D<$RlyVLmgd&HOuyfn7,S?im?Fepn6~wfELt|+o.CQ<(|emBl7]9;9Ee2+%vYVuz~ruLQj)yL20Qv(>^6n|<;J%ZjNNZ[
 1X(~o)N|$7#%$n*;E0iC<h0=eW9W;GE3~>>Z1@.]SJN,3Y<>S0LN*Kza#;o7Z)s!mtb]n=uzIfOkn(hwLL6;!1!<o.M,o:7TDeG
 #H:FSm<upE,m>yOnu37jW#GM:UWhC%EeVe=1g2sn#~cbx3Mbthr9#gm^_77C5x_&jn:X(B_TiT!o^;%kCr,_]qv%fi%sUcno@(<
 5zzJcc1mtT%hfBC)1y)evz~Fa=r+5|aNy;od4OMLIi7)@.fO6Uu=:+AQ<mxiEl1uSSOJdVWClj9C3CCLqcB48IC=I(&8):k!U@!
 SwgyTdUyeFFgJ#vB1;1kvDm~f^y<8^~MBJ3YO%r^+f~0w5~!4%|@ZU1XH;J9V[!bE7!9|>*27NK,:mOh!fco*4(]g0IXCjmN!Jm
 hq.N(oa!42tJR3X>MEuJwJ;n9_EzWgPFC*V~G|vh@NL[FKco7+EV3HtBDu(vOLG,2Hs5M?WViOzb,lGC:xl[eaM9]IfABN[gXmY
 A+D6x!p=2?#]*~xy:i^Dvn2qNTrX;b<$>6rDR8fsl&IS]v9)J4(_A79PpM)<sZeEFp!0S+Y^L1~ckrtj3x$4c;0y.ShWaM^gC62
 msRVuckEi0>l~p)6gW|[!JtYo]ovT<6NGPORvO:b5!8S0bUD$;(FGeelaNjr2SPS@=0#[_Oz5f6lzOs#dQPtrtYG|J|iZP()Lq;
 jjyPh,qiE=7C))f.m.?~@F!zS.ph|3HpOp8CR(1C,KL9ibexOh2;vgbL*G[x.VzP>tcR]]+jN72.UNalMJdTX+xT6PpF~P<7irV
 pmjIos?fwkP$(U+#4.j[|?;b5DVjSn&3.6cLf6OgU!rviLd%rJihQo6G6&<((GMnmN>AaGf;bkg[i7Jkk~Tlzn9tZJqoOvD,4Zn
 ]^#4VXe>G^8<7:+u^T;yokY$0*WWgf~C00accV(6H?i3|DSRD9DpJhtmhiQ&fQ_CQ&o[k6?sCcaLfgEpv81:Jb^ap@9u%fRZ@m^
 !3XLjDW)f$+,Zb^_BZ10cnJLbLzM7r)*Brq%9]oy|.~?L37eG!z6eq621@)bt=$!z9#Iy[(ftPu16GjTR$~7,C1U@P4wPi)d=Ma
 #P^1C&P!3F7?wh7(*i&mofdb5PXK^X]3)8[ldebts[tl!CMy=,vKG~4cXV*Y>Aa:q:W*#T[=vaUD4<([VaRW=y@exvPYQYb0%]I
 i>tc2l[7iVsrCZ([a:A:<!]#pG417q1s1OP>alnBMVvcvdRP^_mcxO@>kBN[KQm.05EKy0PQOuzr#Fm#IR~NHm$sJ4]u#[plgap
 )DRW7XnFKsk@jx>ab?jSxjqg:zp9zm+dWiXv$ImY2qN&5dp_9z_BSXW[GSpdWsXnv&:j9A#?XvSCP8>C8<]]ag;v[6JtrE6MMET
 hSI,L2Ou|cU<3PyO[@&k;Dqrb<%v^^;@fx)wuuys_pY;1k.^@N?Y)9j.MaHzYLS][Nf9#(.]zcy[6dXh6rVx5zy8^d;9ohAEEHn
 j%C4F~pzG028~7c2)R^Y7(Rc2c5iifRU=N#MkIt3uwqNI%PQf<Q5Jf(@B%sA4v?1q2Ar;<fiYh[!G;:W4VB.^Vio:o3(ZYMFL%(
 VHi<ONNbB~3CC7^^#u8=ZTcpc18.3v*zGAi,+@.OK|f,VSfQyA+]PWvq+zV6#j+nN9_s<q(o_c:#PbMKNuOM%I[&t#&CDDs9os6
 ra;)fw[_!S=o=vYYQg:hT5t&LzU$&urhn3<*W|d4fS&MQkyy<(1Mhb>5cp$)_lOpR@oc,S60(vf<LBWLS2m4c$bDRj8oOit[:p_
 %WM4gaT~.a9=]*ZZE~I0P#j;mTfbW?1;*[E2Q?|$<ixbB<]LvQ~hGXKkRC9*#~O2N|8eK3vPjS(y((MdPq6AcvW&P8!#RJ@db0w
 ILc8[b;~PdX>j0j?)8?f*8$aEE0j|+[w4vmSE9L~4I3!RDT]q4?S.^Q8zP#3io$I;R1:hH<DU~lha,@XUDE,LVjv;&6e>8]V)Nk
 Pu%nhx6e7=N~j|2=+&<#Efh*wN|[S@*KUm|jm0GwB%[[K;%hkbvyQfQLvF>pP~mBjEESozX4ei;lF(IFelqNQ[ciH!rQvjn)b^^
 gY#VLrXDwbL#w_Tjmtb>d8Bekl_n~>(qG5a?eNF]3bl<?aVDuH~(|F2G.Zgr5n).&#+_^uRw0@&;|nBDL(&?5LMm++^GAs$E~<f
 SrsJEn&W;|NTEzS09EkR!iyT(,RUy@KM&t[S:q7N+SjlUPqL,F91N8pnC=)_VE6P1wT5L:%5>_WrYq1c_;U#dPgGg.FltBQ7rzd
 t1e:#NMT82g(GH*=Ko<r?v*Esvfu[rFf?ph*<*YXxFoMDa^W.mIS.n_]y=lA[]kI+>+_y2ei$Xrq.v+p,=Z^(V*CUW$uU>Pn%Cg
 OUh9=TkXI9YECivNh@D,3S_zIO3_IRp_EdOU:%;:<:QJMqV4oDPO<U?P%6u<!,Hh4>~*Q70*+V117.2*NT(&cU!7IYZNVi%5|;+
 F[lXa(db_hLkhz!2C5^&;;^pp8Ir;8hx+tA]Q?C#c]Uu3WcvV[qJ,(%jh7,60_)@e_J6PGe7N#1ufh.gV>+C<P;4&0$E]zRll*$
 (ZJUw>AnnUk%[3Z8%8:]2.,Yep$<sUASFsU#[RGk>DxOztU>yQxPQSp;R5s2ZR[qvdcq!9%Pc:vfP<mvlKgvycYr&<Q@|,fu<ZT
 RP0;F8%*0f(NLBJ.9,)#i9W#U<s0ANm*%?X_@8vdrB;!&,l=X<y3Zrr,DkAZR]iXCg5.Q$1td1)E)2WBddmRu>$Gfb[kKIDelQb
 1]qJkc=)f]pF>[>[F:M3@_8|l08OKTO5u)#ezfe_xC!du(]RoURQx;GQfKi~9^DwY>OzC8pN?2ko0TgV22IKJzlGn:Qht9v.2n=
 i<UvWb)@vEy:&C4xi~odEBrIgtRoT&IuW[;9zmP+A|u9.Usd%J[CSb,NwxVL.s(5g0+YO*<PfN!^lV7Fm=@*h+>L(]2gcvx:IsA
 Hwu$9C0z$,J5vf%KUK9%L!z6(QsB<1n9e_H<G<cMMD@YZ(&!~sO_*q_Gv%K(VD02#AN.tmV^Bl&ISnLB@|tfG@PsIj3Muu!:yK$
 .^kX2Wq>IyUw7_HcPmHl53.@Qev@MO0E!T*[R$IDa?W_YTY:w)zYW!.fLZcU~ROoy~5E;P~FiD#2Ea_)DobpZqKPmslr7g&l=8g
 orgN~@6?*8+v+g0r4_jmQT;g&R3Ma%aHy9yWKuMWNvO[aoi%_zyEb@7f67xA!;wwKSnoIi4,R**fzs5hV@:tf0qaP0JtNFh9^f,
 C2!m[Iv(;yP6#AV&n6)U*^u&_K^r=.~N@C~B~Jw&6af?m,%V4[[<Geu*mJ<EM(!:<cF*c&La9E8Cz>Ge&Jn#2Cp9eIMk>GTGN*!
 3Ou960nbU@ov,):><9mkV63(3DpH<P):x8vG:;W~Fw=j4~Y283m?AB4X~WA4!ys%_cV&]Hsie+@px9;i.Ph[l;^|cV^U@i<17_e
 uR;E]eqrBmg&Iz9hZHbVIFC|7Q|QU2Li7tk)0gY,y[;<l8)hj9@dmIAy0sF8Tt1^0]~TE6h?s(]QOK)BSEH+*i])EM9f8R#vU*?
 Fsu$saTBwV8bZgypG|Ywxl,tx?fCnAhO:7rQlF5iKDm*kAw:fab^|ct:G%]Hs>wh^[hO@u(=S$Q4tfI+0Xm(pZ|X8<D#O@80+Yt
 =;Z~DmJfLmWrO?g5~wvy$v:U[b#kRTB|sm6]tbI|N|sqn&J7CLYMZoORyt65y+8l_Dse=?LaEhaiaC[ErHFx(dmj<qsv1[j$#a2
 _fe,wh;8jVR)y=|vV$.FjH%)d$+sL[H:n(@1l]4k%jP_8tcw@[%Mmva)4tycHqRnU&#z@)ih?N<9jiFI$A*:gs?SfyWgZW~Bc@*
 Y,*<Q>gj[(e~eEvCW(4UQrk5<.nB+<D^2:7|GWeYXRR;W(G[6xSi[.mlR2kT7anN=3qh@2<50KTl1gvtpQs1yQ!Hv$&eD4HZI2:
 bh.laA.5uymoI<i+hjMmPB|X!mv<@bC0DZ&>WK8I6Dh4yJN$5OvwI|NXwP?3~!u9suJv3d#@&d&i2_qO^)9zrdM]atVZuV%Z.k2
 cv,NB0tP=@]D=Fr=0Och<)@0NSa^=|bKrccjL&ROtuf*iNDN>wf@R#c%6B,4$d9w<Zr1Q4J:]c^NB>]3%L2:qV@cX*T,u8=Zp+4
 Oi%pk2<.&Am;6?c>xJgO<ycT4y|90$VXMez]*drfvkxqLeXNOS~UDwG).5ZRl|aEN%i%8<#WOHK>T6zgkgWG<PdRmkS:9>LhnzG
 1!sU(da_h]V:e_;912j;jU<WLEc9~hz:hz_$X&++brL^WRgmxo&FRC|ItWyp5(0f82D!:Yu4HLqr87QrMR^H:b1EjV?TVA!NujF
 97SEzMgma~[oP5z7$#PhY>jt<]p.7gK*N?%7<a:9.?@v]S;YW5BXD#3A@wNL>~5u>f~j|Y:xHvgPmjY>gQ(^Y00JXD[3Tq)B$bs
 PfZ(rfm|2ac=CS_HiTe*yJAd#jY(@sKh6;**(|>6<p%C^XecFV[1IfSpSZve1*>f[OxBjpCfvOgvq[~w_C[V;J7<IEA7E:H[z$X
 WQH>;,8P.h*%Rc&ezFdM[e65x>&qy5MNDVK,:~~n2*ykEfjB+pi<#cwGczYL!<:IP)?4QRUpi3H5RA@<p<NocZvM*h2vc~%hmK)
 m5sS,z<FFk&I<4l*r8Q<wmQHFSg&g:@I^1J!@CVg.A:Ml>(qeO=l6xl7X0a3JYG7u(nfn1>:>+<PFm,<w8#Xae!hZL_reDvs969
 Jph2,9bN!>R^!?M$$WXIIB;@YBpo@]8J[U91v3N?Ju~i:sPJ!2._,J*3XJuT)z.,:s)?*XQg13G;QesRC060<jVI(vGkFMsxhKf
 sd3WiM9|wC281.F|sYMVkFR4dZa%JL5:oC^M;kOAP3#8t)IFRd@]c.XQT|lv,p|*e@l?HGr%FAfEQltG=q_NkLqxKOp<u;i~ML!
 gytgHACK!A4Ri64Tx)[CGCSn<(e:&+y]SgjbU;0aeMkFqhPsj2HUN.O=f,.8YCL+qp=YegLrM,E9CJpUD8:Hp1B0>*TJqCJ>L[L
 :97S=,ff*BcSPv2F7:Yiv1L(q4OAUIgRc#s)9cdaJ[&]SYWgI=RrV8+Th+bu9|b8[[nDQSsAh*d&Y1nBgT<@8>:v>a>10HYY+q9
 NQlHwE0cg[u.(C~YtivJEo1uL.RO>&aMm~g.OB9Rz,7aMB9bUoq.OkEBV;J0)h|eJ6aE?!EyKlSFZCnb$VA>H^CM|bL4^tLKy4f
 2tvv]u>5zbYzp|?NwPchN1UEMfCQQ=wMVMqKhV=k#Op^ObQ_2=a_]62FrOC1[w8(Z1fu=HMyt?cmj==T:Fa6%v^N4U4DHl)4ywF
 1vw^@f|#5k==QuznSOM,HB2(+K3W,ZQ8B@LS_l#!3Hp<4&[Zv9!.8WveNOAK_>,.K34|*vQtO7<KWCn&l8h$Lb<NSLD8DQ60o6u
 +KYW.$RTJ=xZ;0NAKr;Q5bEBinZJQOI_6RHzmMCaN7NC0Uh9a<[6@DxsP2rSP|eG+T&cRzGC5>;^W9$%Gf|+$S?Fyh7VukKC~VP
 VqiA!:aFQL<X78TpP0a;XX2q(K7ss;S$k(i[mq;F&LTbS.FQ6%i^L:vx^yRQ1;eP=u&sH8&BGQ^ENGB26@#<AMGE+j(_A;ZbKpC
 k5<V[)Gu:x6O01o+[3|)a__<Ah1fmlE^!tXVhFmEMVA*n7j?l>uuLPLFC9xh3q9lf]Yv7Jz5vny~F!1D1O8k_C95J1M<HIi*ev3
 iN_Z+?wM9~P15w5%)V$jXo_]2q5%DMgi&+9Bv:N;2eMH82[U04;R;,I7nGy5*:t24E<NCo3]@,4!QMcSoW*3)<0YLyp(pl(C@_2
 9+(QGUt1^$kEJ[E$(wocour_)E*@ra|b~N1C*ue7_f@.2T$HM09gzTehHMBu!:AI+gjFLA4@$_Z|L8GB[7$IaIg[8p;?&e9SX_(
 9DZS@;ixqQ=t1IxS8|MN#44<.yqA5?=YkrP_^<sx>dnk~|a9gLr];OxSMi;velpeGV.a9$h|6?Rbo2Ltny+A[99z@T6O<zMyxzm
 9fzrU2p1YIs9pa%Xxbp@r~dEJ9sE@4o%.[%3wEO[ai**i.a3KhQ5JP|la[cvhqA?l@d5gJ?2ORZe][.;T5FwI!+2I*H2?X2uf*#
 mxp73f|)|UUl$n<t~dgL?K_NONnxbdQR,Rd|f22,[@c]25t>GWRZcfrF&K.$tc0_PM1HbT1A,Cg>](zkDHY?$0Tzb_|=oh2T4X;
 a|?tgXc#i,2;Mtv~0[nC$c?g1hpnefY?$FCG%V#9_A>qo|QGCI#u)aX&Rd1B:6Av4NL]5*+kbp=XbPb#wZI[Lpj[QB&Md2y.9*t
 k9Q)bKoxrr|DqOgN]X|^6:8R]P)TbQn!+Ins;:E3fgK:kGX(qn=hXHd|@i:zQlK[j1dJ$dchJJsW7Ho5L14~eO1@?6kXaV7s3CR
 VN:y4%^$jVB:!^6*]k#46wKKX8qef[I?+V.]WCU,Thz|fj0dR]tCQZHgNOW)F%:*HRt7Z3Jq056w7B+<|J$ENQ^J3V&@<knwEht
 mlvbCYk#:AJCV10k5n*WprhQR8x?kzm_nJvW2[Qp;[EwNVQdd~1gpMF55+0lo]ncYuT&o[pnkTPfg2;2,Qdt:]$hNh)KCgG00%^
 ^m^Iy4.S~SZJ%Ub%^=]vm:hDD6B=3X2m1l0W5xSqz~|:nlQ&cPFrmYftmAS&Ibfj2!>o&u~S;nM[GWV7Jt#vNzWFEe)oT$1y3,e
 QYFCgff^7t,UQ@*(|5W9:U4h9V?7E*HD,W@t19)nA:IZ6)Zm:&riIa^=vf&>>5E%hr>6kSyGS>Q&!c^Z0QeX(PH&P~]mUVStTN*
 o~D>g.NQ=?i>hn?dy?Ief5gDbIrr1_NS$FBh$@ydn!_UawV~<Q99H$a*O|_52sx~r19wUKWD8n$hd.g&Z0G2@^Drnl&;DCk,e6,
 FM.xnLl<tXBI<aWa,@kR7f$8?fB<;B]sE$lR7aw<jQ7h+H38R?@Xk*sga][3?Sp0<XiVly.ZK*nVbRPrs1ibKivZI|[mk.agoOg
 AvPrppekOGyzL,%,ZF=Mq6<~4eEP[M$k=?i$p^mPU5<G^E#ItZ0gU[zHJ:*bJPIgc|41ho.CHw,0j4i9IdRU*w$b($0J5DZoj1O
 80P#AS4d1wn4H*O0nBn3GcVZ=kbZxY38<SLdI>PM]qbXBLvAVO._yOv:Qvpsp=Wt9[#I4[v)eimYH,ktQKjptE@]fuZ.7h.HjA5
 rRwa:vuj&#1mmSUj<C6Slx#cOGbKyr>uOm[C;!.y&at[]LtYUtqIgZjQtw&Yar7x@JOA_VJYWj>ylNbw98*cS8k^yH|Q9p>u]7^
 ,ZwH!Mb|yW3j$:[JdP<IaUC#:$S+r?TR^n1F4eBw8Y2pO=CSU+$_(q<bd~#]68QSnmH(vWIIi4|>Z0Pg!nwPoO;.#)5v,w[XAJ3
 (h7<<3e>jwCm^KyIL0RDpqS0Bqn,9Ga((TM?hLB.(P$[qt79W>>)7=#NsYY#@l(?.p,.V3%dLDGSa)h7RH*C~ow80!A_4QN9Yi&
 G6d(&QpuLDmq!m2~n^?up6G4>oMcH!F22W2;9Lq|GQ3+nOfez?,D^87,A,]5L*r:LQ*Fpk#_~iAsGns7EK%;w_VZ@UmQ0*<GHGh
 4%TRq)Z!>+h0jP7vA.Rr+0;:2_23m25%(NYL]B>63X97%U!qxq)&jcJ47(m_~$8=]+C1LEosn)+xS,7kLx:5Az$j%zf3rHIs3ck
 9,],II_K&pF31imk@!Ch|g@4KZS_z=4xS5#r;]_@I3UfMe]EuiXMgnuO=sIM9p<yZ%CyU+4X22*]K_ftv|=EBiDP*E7fu+Fkb<m
 2uiudRtg]b=8%bn?acJ$^1ja)$Xuof=X2<Z#U;c1*IStTs*]qUd5jT1*Vos3aII_DTTCU3l,R!HfCh=Ow(ecK!25_gO(8x|ZuIC
 ;!LCfpYg7Yd[,%97j:#I!Fi7fPU=EdJ*Gyv@o)CND$9I=E*$T,m?9FcUIVs>#11&ryba<,.Qs6z(2drNvilbW!>tGS%R)QG+W5F
 ahK!rp?2,FBZPwp,AFf@AVG2]jix$VcB4Y+f)f~X[XsNhVIxEq~w5~Z%)EEPtT>(ukI9>9cwm8WKg0s9TC04k1Uwx5H<?YPTl8p
 FUk^jALHtizM*0#(eBrC%|7@$A!w*sm8mG>cYjpX@:a6KA))68$vxsKH(krr2B0e;#f(e*mn|2&6:h.|Q)g^f@&v3AQew]^1vcp
 iX@1]>BQPBlMm5rWw6*:~;w2%4lV30VRk7L?[faXxDI3?x0b)sm3%VI<k$RI;e^W%,AER,>lKl&CBSTFE7]M%,)Ujr(&5K?o=<u
 ~V~9u5DK)JCnARmW,NaHt)]FHYFvFAM7j0>o@!JxLvywJ.~uN0QDYE98u>i0dHbm3l+iW*d^Z>]J[T;hy#:nLQ.5];^vX.A<fgY
 NJtbQ(YXy=rN,N|FdEWM5heKuZ&R;xr9DXEU3Uqsx4Z8cBg8QwoESkR4JkOam;=DIDH%Pjz,En)(U4nsk~Ju&D0NJ(PFpAJ+8^d
 I|6C<3$%_wHQDaL6K56;K_(O_1;WsY$6]A!j+|E4[bfj^#kEOngsSiE.|8.drXYy2;^i@pU!cCOu5g@9xE]vHFI(jJK6@b!v#s~
 .|P>DXW]$KF2G:rl^;GIs~*QI?m,#Vk8UENlWIyBZ.#UA8,_3b8iA$j#V$G@G_^J,O_n_JTz#X1_4MExX)T$$ry0uEpZX=TTOzy
 &iqP?A&(s,_:b$1RkNEJ,u%trif)@Y>n.&|$M:QIh==ibF3Y0fc*KY78p7Dp9WH[k[U[i#:16u&Zi#~9L:0u=mFq~hV:5;.SxMT
 51GVGhW^%!X(II>].0uCcRZ9By]T=HZc?|u^tt_nVYA,<9ZUw&na79,^;nxTZ0Q5$5Vag^P=IcrjYsHfa.>E)=7UFrlaCiI,lt:
 na1@3tzJU*4Zn<cqX;*.g3pCpf[idbM$W0x@a9w5H8eoApg!^mMv[yo)#]V1VNDp[b7zb%16e*%ltI6mVwXj;D0*yW+2G000$sn
 QkYE9q3Xid;W5JbC:6|+DqUo?_g%+Y;Jh*GyTv74k8,,1p)DBD@swS0aRqo>+^@3cVgrQGPAoWVqGa];p%Y+YJBK?;&)EJWKp7p
 DsMb9W5PZ*Rx!8DBLDR6!bqXJJhc$<kqRTLem_l^k=K3zyD)9&CK@(>qA&)pXkGw((Urq(BAt.HI~p#7D~fMg8%&bVjhMW.QR4B
 s~0sL~(3|(:Z!x?8awN@HKVd:|P6jX:W7tNWD!<;Woxwm2whhKwc2w^*2[jzh5az93Lp~f#ct%);vVPe(u>05ojNh,jgtz=r([3
 37MSWloo>&|MCicat4JT=p~Kvb(o^^q+_*D;,gf:j84m5zQE(^Bwm@a)_l^kFun92d(Q|WNq^Uh*Xf!i7AUA(Z51Cxph=y,QiLg
 UeRUFG8i<Mc(vP+3wIgWUnh,x23g>DznFZVLFc?s=.SxhTAq;80ICT8i((.YTM@F]h$gqFX^Cruv=bXbQo&U[c?%0%;_vHOzu#t
 VQW90__(WX1G4$%t)pQW4]FpEC1.70K.Ab.do9S<Y@1)Q|**E9yLo:Yosq&Bu$4Ac~ru;lnR~t*&30II8jDo+>sTY:#v3SRNq?m
 BE&7$!o#7ah6plxy+zMq7wpo9b7>w8d))!VPDpg:[l)l2y2S:U]Tg,P8j6L%R*k9|6%Irm3TV?nY~?os^#uc;@<V7a)h9A0r2h@
 +Y;$WsX*s>eom2sh=^s3ix<HRoc2h_9H>ap3eX.]8J@3Zc%ZHe:#F$;CVSBrXIOj>c$EF<8,FwwUJem%,,YX_AOthKlB,~)F<&l
 YnIV$20mK^#>Y1>Vg24|P@rfx0!dc2S+daCI#;~,|IG[Ov8,La,QT*EQ6.c88Va+[45yC]8.uDLW>y2Q>&uIL7;*z2bspUcL9(@
 n$pwOVIe#G$yIvgl.@0Oyp*k|,[$=*?R:.i,ibw+Pb62ToHEL>foYAX^8cG,j!bVG](U)v4aW6x)d$[.7?[l5!mj1u^p]r$xKcf
 .x^;)fG>ZznsX~4u$QPdcJ#LUmUjP]>2EYbwHrmhL29G]j3EsjlWlxvH7Ok5Q~>]9WMm~,4lw!R]LVZ8K^*7eLB84OU=1+msGK]
 ]04fObusk,tKSi72omVv#Rni9t67LEh3.i&m!bUzN9q.Qy#:Lf@g1)~j=Xpa_GbnI|qNByrx61GOlZNXpfi,&=_cXgXFa.X])h$
 j^~*7X#3KARmL|9Ya>IC)*kI:(LA%gAUV%Ve+Zdti[~KA4UjQjq6VdU4(k!H&i>[ZwC~O+<D~^(hzV3P+L55x$ao::1GlUt6l#F
 XoJ~cYRR4k94yuRsPO6ABfG+YZxvQn6G+K~kNR4dz2[wV._0^RjTqKClo+W)=bqPdTN1BO!J0o,IL.N,]#l<0AABVq#]:vKaY3o
 IX&:WpDJXVB,3.&$s+?uCTx9WP9,QB#&WwJ*v#J1$w.<;<lIdtQ&E^aOR)5aesr=:IDH1o0hOZ|7.I+cDc_0t2tSYsquavoUTyZ
 Ehn.9lXW<$*Sg0,w!PglRw2?.#*xpMUtXK||>FZ<;:z*UWiXz_e%c5+F+&e8*ic.[uZu6(+c|DY?~5f^kQFAd[uxtpvsE;M!$qs
 Lq(^]SktQ9Ebf%~z),p.LXM7qZ,Lvy=Ny%lg<q!X?b9xBE.V+]LRqg$a_J7*hQ&j|^1LDc8l[Ww#ehDj%kP9+|fgP]TV>#kMqBq
 G<+lL^m#:x~8QH%SvHdDz*(DIR0;|:jjhf%^QyxsFJDQ^8LMM63^x[?4@*M#8c;EUWyy!J*E&to)95mN%>(ndxWdp)4oQj^$jhh
 u0[Y(xU.B>B,7M[vdPWt|q:,OxbEDp|LzrC)TBml#W4lWU(87x|$1SEa,Rc6OAH*&*Cca&78V*LfN:$5mu<38ACNB&_Y,3?[n=^
 eV(qyte)@mB?Bi0RQAf>K$T~lp:a>S0Qd@@~4fy^,4ci0BJ<s8zb5&3a?:Co9UQ6Vv74n~x~C;tyEakw?#p0rY^J!sFN.|[9lq9
 VI3DEXUdfvr_Sn^EhM>(o(]sRzA_eYgxqF7C$kQxABvR=@tMu#@VKjaI1Vms?>MXNN#=%5q8^2ZeOrdEPngJ(hrDsQ<+Qe<uTDy
 Qsf1y?_DZ6h375=Ec6O(<&)7@WOPtwBq7!6w!O3|hF]7v4<K?tF5O:X?z*~CX]HiSPp?V2jaZ_BLauX$V+Bi3u87%AfHhsCJro&
 [t^Tw=&M8|XVK[2usvPQJ_pgr&6:#MDoh_:bi>BB4!1;tXx)yD6J|6Dv5PSS#>hztirkTLjy;eh8GmI9>W6_>?)9O2E1[s4aY^A
 NO4;D6uU*O^Og()Q8H8W6~P%);zGEH%xyC|.0Rm*<B7Apl$)@vzJ*id[7ckmz^AsXta6odTh=cw59b5Vh|t.z&nNB[;W$7.@kOK
 e,H9Ou(T*e_*:gJ|O6tCN7Bo@&Qn@_w80s67W]TgNLAtY>IuvP_#UU27?(jr=63*vJ^~K?Yf%%e=AGeeO?&Bd3.os#!Ggrk.sN(
 T8Ny_jZNt6tO:<IImF2l1OKAx@4N^EU9Xf[m[TaN,9edns9dF*eDv5zXzQYaY;]4AJo)#?u0b9$t:v&T_wm6_d2~(H;~IxCX?U]
 GDILb>SM8TTzsaeq7Ae*8.EK9Xa?P#ZfC&WL>BG&<^e5W.U!SI4%me9#4_hy]~zYC^b8I2i((,55S5ZIJffhEXN_0t)qEYh9;sj
 BVK|L(g,l[iyG3Cal+s:roY6+&5*oiA|*w*,Y[FDls^!$V>scJeb[8e=[*7RJ7rVyZ@|orTqja7zKYvaBYxmNCJd?P|.^am|L(#
 wt3YNgX)*+7ep8MMOpB$X9Yn;YZb&wi#TAuo$YzX8kRJ<vaeZQGe^KQHN6ze=]_FATsO$s*!lI~z?E3|5<JHL0pQBuxy,3BxF+N
 sZ<!nP?!xaJ*jMIS7xu1+Jb9%JDL5@3&35e8v,$NpJ88mYGQdy%x4)8N0U=LQ$<mL$d:M+;d2>$h;f0U=;NvQ0KP*BbDgZIm;7T
 5_&XY,[,T<8ulZ+gKxq333cJ$BSv:*=jkG(R)#I[fpm.=RRd4@~gB+(@9Zjh@R2<[6XT#$LYORo#rqxwZPousK1a#MUDuntW<*6
 w]RiB7roWF<P?hD.UBqQRCu0u!=wb~R<K~78+FvFS;0,*jSjriU_[~R1YX6CMJcnda<UEzZHp4l^R$H(Yd.5#[4MVeJWJNJik<I
 G~d.x588o@Qt?]_3OKwwazC6bV+.:PX)oznkxgsNXEp.^|&A[lm@@dJ0&7eG#GnU;Eo;0L[U84dYV^UuKybJhr@BXJU9gurEBAz
 o$*6x*8UW=ri0X6l2Pno:YHGqi!iEJz5W9)TfW9*A3^)=;BEvX14zlNY3Zu^QJgSang[xtRa(pVpL#O@bj!iosQA!,ApzkM2uvu
 F%v;6l15jRHqy.vkX:L7t4hw#<|<aFtG*x+<OrI,VJ,zCsmZqu>Z)pMw%.g7iAT!Xugs1R@ukDCX~nS8wy7NQfO*8F|!J!zC?;f
 <u~_@M1<ZBG(LUelcxX_~p<RdxqV]%pxNM@+:7o6eq<61?_&$(z65#h(Wzr~Xu;6Y,nYk0;LI)ohoJgR>F1PepW+>G<muua>!#e
 m*#XUCPudW4HmSPy@3ETJ=9p$H*>0.6.Y<tK?zgw4GbY*RdYdIe_LH[gEPq$0)x_>^*;E9Mc6S1bj3^;5c:uN3F5P*RjMacCG9B
 =JR(%g+&=EIz4&!!jPhzhh)*=%eQ_mG@^,ID9!!y[qlFZ;g_Fi5.&6+_FfamwGrR,Rh^C4>)7FGFecv@TI@c+9%zE@Lc[McuXRz
 uwACbmQ9n.%q7OFBDVf72K%Lpvx*+*x4!39tU110a*q|y>_V^h!oVy~Q0%((Dp&<F<F1y>[A_@]PQ^BYy[Ya.v*i@BMvZpXsr)?
 x^?.!cmeKFo*1u>Srb^yz^5F6@bqRD&A1UNq!Byh0s>57WVdz:TTo=<d$[@L1<I@=FZo?;3WOz0tcd$IQ2$O+]%<|,rwE9?<cb&
 ;&XWi_4<@O][r;oM:;n(bb|9:X#lk7rz0bF5f8~NsO@Inh%<Y==U!MUEQ8yF7m#>iBO;5bHnF,la01B0u^neKoBN<%;,&_+#Ma_
 p$GO$0_:K3_xk&f4>hc_f#KImhscQQWk(o:HEG=_f)4>7%SO*tslDZ)36v;;E4pr35vpDr~|Fx*DS3!n;if!$ta_@2k%<[P@ykF
 hIp$Ym~ZEM>*|$2OC[gB;DvG1L|OOBl[dkD6y2%qa@L=VVTJ_$yDfmUqf!3D5(4.~9QShO>5|ar2m+9Qm%.m~o0EEEp&ONreEeG
 ?gE:++Wz*ucrpe!WT+$nN_HUPe@3l^AMI?EdF0RehoiT;e3A=1Bi1c_s)7wsvE@*MBUWid>D~+A*MQ@;&C#p<a*7<86NaP^E+5J
 G,!3XeZ2%HbL:p_EAEZ;aksI=9V<mmSrj?=I8Uz1icpb1(9Tf.lnlhpg6FdA7lI<@jdoKW4Q8s?,?YRIO8&496mP^?jneu~?mfx
 XAH1u%p(744zLY>%erHI)JyUCb]*bOdeP&bE7~k:7s1&:?uhr_9CDnHuqI1E>im.OD1u=ss@6T||VDKj*z?>34dOEK|1#?u)hEA
 FGZ>7wd];58,fgbb%#1v!YDk:v8PGs~?<NtfNh0lm<T8ND?iM2BGX2M0[n#nTL1h>?iCsSQ?WQs<Rtx[;L3rx+^jsW]C18HInPm
 6fVxF(jT)3hLoEizBl*]^zhg&e8vI6<<?JkI4C>zZ=5nbyf~UIt;$,xqwa94Bl|10,xw*|H:fNzuUjZT_r1w[td4AU5ct)uoQ^O
 *eRw(tsef1*bWr&NCRYo#hdlVv!"⟩

end Docsmith.Text
